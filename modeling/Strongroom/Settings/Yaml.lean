import Strongroom.Settings.Yaml.Node
/-!
# Settings in outlines

An outline is a nested list of names and values whose nesting shows in the columns at which lines
start.  A value may also be written on one line with brackets and braces, and a text between
quotation marks or as a block of lines below its name.
-/

namespace Strongroom.Yaml

/-- The settings of a file, which ends at the first null character.  A file that holds nothing, or
something else than a record, has no settings. -/
def read (text : List Char) : Option (List (String × Datum)) := do
  let tokens ← tokens? (text.takeWhile (· ≠ '\x00'))
  return (← (← Node.ofTokens? tokens).datum?).members

end Strongroom.Yaml
