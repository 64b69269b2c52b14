/-!
# Tokens of YAML

The marks of a document: where its parts start and end, whether by brackets or by the columns of its
lines, and the scalars between them.
-/

namespace ServiceCall.Yaml

/-- A token. -/
inductive Token where
  | documentStart
  | documentEnd
  /-- A line that gives a handle of tags its full form; a line for another purpose gives an empty
  handle one. -/
  | tagDirective (handle full : String)
  | versionDirective
  | blockSequence
  | blockMapping
  | blockEnd
  | flowSequence
  | flowSequenceEnd
  | flowMapping
  | flowMappingEnd
  | blockEntry
  | flowEntry
  | key
  | value
  | alias (name : String)
  | anchor (name : String)
  | tag (handle suffix : String)
  /-- Text, and whether it stood without quotes on its line. -/
  | scalar (plain : Bool) (text : String)
deriving DecidableEq, Repr

end ServiceCall.Yaml
