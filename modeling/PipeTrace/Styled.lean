/-!
# Styled text

A `Fragment` is a piece of text that is written as it is, or a styled piece that a terminal may
show in colour.  `render` gives the text of a list of fragments: with colour every styled piece
stands between the codes of its style and the code that ends them, without colour only the pieces
themselves are left.

This is what is assumed of the library that styles text for the terminal: a styled piece is
written as the codes of its style, the piece as it is and one code that ends all styles, whatever
the piece holds, and when colour is off nothing but the piece.  Nothing else is assumed; where
pieces and styles stand is decided by the program.
-/

set_option autoImplicit false

namespace PipeTrace

inductive Style where
  | caution
  | headline
  | marker
  | heading
  | success
deriving DecidableEq, Repr

/-- the terminal codes that begin a style: yellow, red and bold, red, bold, green -/
def Style.codes : Style → String
  | .caution => "\x1b[33m"
  | .headline => "\x1b[31m\x1b[1m"
  | .marker => "\x1b[31m"
  | .heading => "\x1b[1m"
  | .success => "\x1b[32m"

/-- the terminal code that ends all styles -/
def Style.reset : String := "\x1b[0m"

inductive Fragment where
  | plain (text : String)
  | styled (style : Style) (text : String)
deriving DecidableEq, Repr

namespace Fragment

def render (color : Bool) : Fragment → String
  | .plain text => text
  | .styled style text => if color then style.codes ++ text ++ Style.reset else text

def renderAll (color : Bool) : List Fragment → String
  | [] => ""
  | f :: fs => f.render color ++ renderAll color fs

def line (fs : List Fragment) : List Fragment := fs ++ [.plain "\n"]

def plainLine (text : String) : List Fragment := line [.plain text]

@[simp] theorem renderAll_nil (color : Bool) : renderAll color [] = "" := rfl

@[simp] theorem renderAll_append (color : Bool) (fs gs : List Fragment) :
    renderAll color (fs ++ gs) = renderAll color fs ++ renderAll color gs := by
  induction fs with
  | nil => simp
  | cons f fs ih => simp [renderAll, ih, String.append_assoc]

end Fragment

end PipeTrace
