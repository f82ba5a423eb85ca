import MessageHooks.Yaml.Tag

/-!
# Tokens

The smallest pieces of a YAML text with a meaning of their own. Indentation shows as tokens that
start and end block collections, and a key that is only known by the colon after it is announced
before its first token.
-/

namespace MessageHooks.Yaml

inductive Token where
  | version (major minor : Nat)
  | tagHandle (handle : String) (start : Tag)
  | documentStart
  | documentEnd
  | streamEnd
  | blockSequenceStart
  | blockMappingStart
  | blockEnd
  | flowSequenceStart
  | flowSequenceEnd
  | flowMappingStart
  | flowMappingEnd
  | blockEntry
  | flowEntry
  | key
  | value
  | alias (name : String)
  | anchor (name : String)
  | tag (spelling : Tag.Spelling)
  | scalar (style : Style) (text : String)

end MessageHooks.Yaml
