/-!
# Styled text

Text for a terminal, as a list of spans with their styles. Each style opens and closes with a control
sequence. The styles of a span close in the order in which they opened, and a colour that is followed
at once by another colour is not closed: the next one replaces it.
-/

namespace ByteMachine.Text

/-- A way to set text off. -/
inductive Style where
  | red
  | green
  | yellow
  | blue
  | bold
  | dim
  | underline
  deriving DecidableEq, Repr

/-- A control sequence with the given parameter. -/
def escape (parameter : String) : String := "\x1b[" ++ parameter ++ "m"

/-- Opens a style. -/
def Style.start : Style → String
  | .red => escape "31"
  | .green => escape "32"
  | .yellow => escape "33"
  | .blue => escape "34"
  | .bold => escape "1"
  | .dim => escape "2"
  | .underline => escape "4"

/-- Closes a style; all colours close alike. -/
def Style.stop : Style → String
  | .red | .green | .yellow | .blue => escape "39"
  | .bold | .dim => escape "22"
  | .underline => escape "24"

/-- A colour of the text. -/
def Style.isColour : Style → Bool
  | .red | .green | .yellow | .blue => true
  | .bold | .dim | .underline => false

/-- Text under some styles. -/
structure Span where
  styles : List Style
  text : String
  deriving DecidableEq, Repr

/-- The span opens a colour before all else. -/
def Span.opensColour (s : Span) : Bool := s.styles.head?.any Style.isColour

/-- The sequences that close the span before the spans that follow. -/
def Span.stop (s : Span) (next : Option Span) : String :=
  match s.styles, next with
  | [style], some t =>
    if style.isColour && t.opensColour then "" else style.stop
  | styles, _ => String.join (styles.map Style.stop)

/-- The text of the spans with its control sequences. -/
def render : List Span → String
  | [] => ""
  | s :: rest => String.join (s.styles.map Style.start) ++ s.text ++ s.stop rest.head? ++ render rest

/-- A text under some styles, by itself. -/
def styled (styles : List Style) (text : String) : String := render [⟨styles, text⟩]

/-- The word that announces a failure. -/
def errorHeading : String := styled [.red, .bold] "error"

end ByteMachine.Text
