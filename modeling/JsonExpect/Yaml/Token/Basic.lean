import JsonExpect.Yaml.Label

/-!
# Tokens of a document

A document is a sequence of tokens: marks and directives around it, the beginnings and ends of
collections, labels and scalars. Collections in block have no brackets; their tokens stand where the
indentation begins and ends them. A `fault` is where reading breaks off.
-/

namespace JsonExpect.Yaml

/-- A word of a document. -/
inductive Token where
  | directive (d : Directive)
  | documentStart
  | documentEnd
  /-- Items in block begin. -/
  | beginItems
  /-- Members in block begin. -/
  | beginMembers
  /-- A collection in block ends. -/
  | finish
  | openItems
  | closeItems
  | openMembers
  | closeMembers
  /-- The dash before an item. -/
  | dash
  | comma
  /-- The name of a member follows. -/
  | name
  /-- The value of a member follows. -/
  | value
  | alias (name : String)
  | anchor (name : String)
  | tag (t : TagText)
  | scalar (plain : Bool) (text : List Char)
  | textEnd
  | fault (f : Fault)
deriving DecidableEq, Repr

end JsonExpect.Yaml
