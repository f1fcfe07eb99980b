/-!
# Named fields

Data with named fields, as it is found in a document of some format: the fields that were given,
each at most once, and a way to read them with or without a default.
-/

namespace TabCompletion.Document

/-- The fields found in a value of a format, each name at most once. -/
structure Fields (α : Type) where
  found : List (String × α)

namespace Fields

variable {α β : Type}

/-- The value of a field. -/
def get? (fs : Fields α) (name : String) : Option α :=
  fs.found.lookup name

/-- A field that has to be there. -/
def required (fs : Fields α) (name : String) (read : α → Option β) : Option β :=
  (fs.get? name).bind read

/-- A field that stands for `default` if it is missing. -/
def optional (fs : Fields α) (name : String) (default : β) (read : α → Option β) : Option β :=
  match fs.get? name with
  | none => some default
  | some v => read v

/-- A field that is there is read, whether it has to be there or not. -/
theorem required_eq {fs : Fields α} {name : String} {v : α} {read : α → Option β}
    (h : fs.get? name = some v) : fs.required name read = read v := by
  unfold required
  rw [h]
  rfl

theorem optional_eq {fs : Fields α} {name : String} {v : α} {default : β} {read : α → Option β}
    (h : fs.get? name = some v) : fs.optional name default read = read v := by
  unfold optional
  rw [h]

end Fields

/-- How typed data is read from the values of a format. A plain variant is the name of an
    alternative that holds nothing. -/
structure Form (α : Type) where
  fields? : List String → α → Option (Fields α)
  bool? : α → Option Bool
  texts? : α → Option (List String)
  plainVariant? : α → Option String

end TabCompletion.Document
