import ServiceCall.Log.Pattern
import ServiceCall.Text.Blank
import ServiceCall.Text.Quoted

/-!
# Log lines

A record is written as its pattern, then its fields, then one line break. A field is a blank, its
key, an equals sign and its value. A value that is empty, or holds a blank or a double quote, is
quoted, so that a line can be split at its blanks again.
-/

namespace ServiceCall.Log

/-- The value cannot stand in a line as it is. -/
def needsQuotes (value : List Char) : Bool :=
  value.isEmpty || value.any fun c => Blank.isWide c || c == '"'

/-- The value as it stands in a line. -/
def valueChars (value : List Char) : List Char :=
  if needsQuotes value then Quoted.quoteChars value else value

/-- A field with its blank, the key in colour. -/
def fieldSpans (field : String × String) : List Span :=
  [.style (.ofColor .cyan), .text (' ' :: field.1.toList ++ ['=']), .style .plain,
   .text (valueChars field.2.toList)]

/-- Why the fields of a record broke off. -/
def failureSpans : Option String → List Span
  | none => []
  | some reason => [.text (" [kv error: ".toList ++ reason.toList ++ [']'])]

/-- What follows the pattern in a line: the fields, and why they broke off if they did. -/
def tailSpans (fields : List (String × String)) (failure : Option String) : List Span :=
  fields.flatMap fieldSpans ++ failureSpans failure ++ [.text ['\n']]

/-- A record as a line. -/
def lineSpans (p : Pattern) (date : String) (r : Record) (failure : Option String) : List Span :=
  Pattern.render date r p ++ tailSpans r.fields failure

/-- A record as a line without styles. -/
def lineText (p : Pattern) (date : String) (r : Record) : String :=
  String.ofList (plainChars (lineSpans p date r none))

end ServiceCall.Log
