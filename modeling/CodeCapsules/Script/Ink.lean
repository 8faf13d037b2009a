/-!
Contract: colours of printed text.
-/

namespace CodeCapsules

/-- How a text is set off. -/
inductive Ink where
  | bold
  | cyan
  | yellow
  | boldGreen
  | boldYellow
deriving DecidableEq, Repr

namespace Ink

def control (code : String) : String := "\x1b[" ++ code ++ "m"

def code : Ink → String
  | .bold => "1"
  | .cyan => "36"
  | .yellow => "33"
  | .boldGreen => "1;32"
  | .boldYellow => "1;33"

def reset : String := control "0"

/-- The text in a colour, if there are colours at all. Where the text itself
ends all colours, this one starts anew. -/
def paint (ink : Ink) (coloured : Bool) (text : String) : String :=
  if coloured then
    let start := control ink.code
    start ++ String.intercalate (reset ++ start) (text.splitOn reset) ++ reset
  else text

end Ink

end CodeCapsules
