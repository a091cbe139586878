import EventQuery.Text.Property.Age
import EventQuery.Text.Property.Break

/-!
Finding the characters of a property by its name, or by the name of a property and of one of its
values. Case, blanks, hyphens and underscores in names carry no meaning, nor does `is` in front.
-/

namespace EventQuery.Text

/-- A property as a pattern names it. -/
inductive PropertyQuery where
  /-- A property that a character has or has not, a general category or a script. -/
  | named (name : String)
  /-- A value of a property. -/
  | valued (name value : String)
  deriving DecidableEq, Repr

namespace Property

/-- The part of a name that carries meaning, in small letters; characters beyond ASCII are passed
over. -/
def meaningful (name : String) : String :=
  let keep (cs : List Char) : String :=
    String.ofList
      ((cs.filter fun c => c.toNat < 128 && c ≠ ' ' && c ≠ '_' && c ≠ '-').map Char.toLower)
  match name.toList with
  | i :: s :: rest =>
    if i.toLower = 'i' && s.toLower = 's' then
      let found := keep rest
      if found = "c" then "isc" else found
    else keep (i :: s :: rest)
  | cs => keep cs

/-- The characters of a named value. -/
def lookUp? (values : List (List String × CharSet)) (name : String) : Option CharSet :=
  (values.find? fun entry => entry.1.contains name).map Prod.snd

/-- The characters of a property, category or script of a name. A category goes before a property of
the same abbreviation, which none of the binary properties has. -/
def named? (name : String) : Option CharSet :=
  ((lookUp? binaryProperties name).or (lookUp? generalCategories name)).or (script? name)

/-- The characters with a value of a property. -/
def valued? (name value : String) : Option CharSet :=
  if ["gc", "generalcategory"].contains name then lookUp? generalCategories value
  else if ["sc", "script"].contains name then script? value
  else if ["scx", "scriptextensions"].contains name then scriptExtension? value
  else if name = "age" then sinceVersion? value
  else if ["gcb", "graphemeclusterbreak"].contains name then lookUp? graphemeBreaks value
  else if ["wb", "wordbreak"].contains name then lookUp? wordBreaks value
  else if ["sb", "sentencebreak"].contains name then lookUp? sentenceBreaks value
  else none

end Property

/-- The characters that a query describes. -/
def PropertyQuery.find? : PropertyQuery → Option CharSet
  | .named name => Property.named? (Property.meaningful name)
  | .valued name value => Property.valued? (Property.meaningful name) (Property.meaningful value)

end EventQuery.Text
