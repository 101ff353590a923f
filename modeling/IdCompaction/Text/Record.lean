/-!
# The long form of a record

The long form of a record is its type's name and then its fields in braces, as in
`Point { x: 1, y: 2 }`. An open form ends in two dots and says that the record holds more than
it shows.
-/

namespace IdCompaction.Text

/-- One field of a long form. -/
def field (name value : String) : String := name ++ ": " ++ value

/-- The long form of a record whose fields are all shown. -/
def record (name : String) (fields : List (String × String)) : String :=
  let shown := fields.map fun (label, value) => field label value
  name ++ " \x7b " ++ ", ".intercalate shown ++ " \x7d"

/-- The long form of a record that shows only some of its fields. -/
def openRecord (name : String) (fields : List (String × String)) : String :=
  let shown := fields.map fun (label, value) => field label value
  name ++ " \x7b " ++ ", ".intercalate (shown ++ [".."]) ++ " \x7d"

end IdCompaction.Text
