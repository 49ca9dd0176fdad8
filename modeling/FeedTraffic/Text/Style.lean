/-!
# Styled text

Text for terminals that is bold, dim or coloured: the codes stand in front, and a reset behind.
-/

namespace FeedTraffic.Text

inductive Style where
  | bold
  | dim
  | red
  | green
  | blue
  deriving DecidableEq, Repr

namespace Style

def code : Style → String
  | bold => "1"
  | dim => "2"
  | red => "31"
  | green => "32"
  | blue => "34"

def paint (styles : List Style) (s : String) : String :=
  "\x1b[" ++ ";".intercalate (styles.map code) ++ "m" ++ s ++ "\x1b[0m"

end Style

def padRight (width : Nat) (s : String) : String :=
  s ++ String.ofList (List.replicate (width - s.length) ' ')

def padLeft (width : Nat) (s : String) : String :=
  String.ofList (List.replicate (width - s.length) ' ') ++ s

end FeedTraffic.Text
