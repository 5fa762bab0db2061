import RadarChart.Text.Escape

/-!
# Markup

A drawing is a tree of two levels: a style sheet and a list of elements that
have no elements inside. Names are fixed words of the program; values and
contents are any texts and are escaped where they are written, and only
there. So no text can end the place that it stands in.
-/

namespace RadarChart

open Text

structure Attribute where
  name : String
  value : String
deriving DecidableEq, Repr

/-- One rule of the style sheet. -/
structure StyleRule where
  selector : String
  declarations : List Attribute
deriving DecidableEq, Repr

/-- An element of a drawing, with or without a text inside. -/
structure Element where
  name : String
  attributes : List Attribute
  content : Option String
deriving DecidableEq, Repr

structure Drawing where
  attributes : List Attribute
  style : List StyleRule
  elements : List Element
deriving DecidableEq, Repr

/-- The attribute as it stands in a tag. -/
def Attribute.text (a : Attribute) : List Char :=
  ' ' :: a.name.toList ++ "=\"".toList ++ escape a.value.toList ++ ['"']

/-- The attribute as a declaration of a style sheet. -/
def Attribute.declaration (a : Attribute) : List Char :=
  a.name.toList ++ ": ".toList ++ escape a.value.toList ++ "; ".toList

def StyleRule.text (r : StyleRule) : List Char :=
  r.selector.toList ++ " \x7b ".toList ++ r.declarations.flatMap Attribute.declaration
    ++ ['\x7d']

def Element.text (e : Element) : List Char :=
  match e.content with
  | none => '<' :: e.name.toList ++ e.attributes.flatMap Attribute.text ++ " />".toList
  | some content =>
    '<' :: e.name.toList ++ e.attributes.flatMap Attribute.text ++ ['>']
      ++ escape content.toList ++ "</".toList ++ e.name.toList ++ ['>']

/-- The lines of the drawing's document. -/
def Drawing.lines (d : Drawing) : List (List Char) :=
  [ "<?xml version=\"1.0\" encoding=\"UTF-8\"?>".toList,
    "<svg".toList ++ d.attributes.flatMap Attribute.text ++ ['>'],
    "  <style>".toList ]
  ++ d.style.map (fun r => "    ".toList ++ r.text)
  ++ [ "  </style>".toList ]
  ++ d.elements.map (fun e => "  ".toList ++ e.text)
  ++ [ "</svg>".toList ]

/-- The document, each line ended by a line feed. -/
def Drawing.text (d : Drawing) : String :=
  String.ofList (d.lines.flatMap fun l => l ++ ['\n'])

end RadarChart
