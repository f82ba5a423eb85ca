import MessageHooks.Yaml.Glyph

/-!
# Folding of lines

Inside a scalar that is not a block, blanks around a line break are dropped, a single break becomes
a space, and of several breaks the first is dropped. Blanks within a line stay.
-/

namespace MessageHooks.Yaml

/-- What has been passed since the last character of a scalar. `broken` says that the line has
ended; `first` is its break, unless that was escaped, and `more` the breaks after it. -/
structure Folding where
  blanks : List Char
  broken : Bool
  first : List Char
  more : List Char

namespace Folding

def empty : Folding := ⟨[], false, [], []⟩

/-- After an escaped break, which leaves no character. -/
def escapedBreak : Folding := ⟨[], true, [], []⟩

def addBlank (f : Folding) (c : Char) : Folding :=
  if f.broken then f else { f with blanks := f.blanks ++ [c] }

def addBreak (f : Folding) (c : Char) : Folding :=
  if f.broken then { f with more := f.more ++ [breakText c] }
  else ⟨[], true, [breakText c], f.more⟩

/-- The characters that stand for what was passed. -/
def text (f : Folding) : List Char :=
  if !f.broken then f.blanks
  else if f.first = ['\n'] then (if f.more.isEmpty then [' '] else f.more)
  else f.first ++ f.more

end Folding

end MessageHooks.Yaml
