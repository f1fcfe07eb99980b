/-!
# Values by destination

The values that the words of a line gave to the actions of a command, under the name of each
action's destination. An action can be seen without a value.
-/

namespace TabCompletion

/-- Destinations in the order in which they were first seen, each with its values in line order. -/
structure ParsedValues where
  entries : List (String × List String)
deriving DecidableEq, Repr, Inhabited

namespace ParsedValues

/-- No destination has been seen. -/
def empty : ParsedValues := ⟨[]⟩

/-- The values of a destination, if it has been seen. -/
def get? (p : ParsedValues) (dest : String) : Option (List String) :=
  p.entries.lookup dest

/-- Add values behind those of a destination. -/
def extend (dest : String) (values : List String) :
    List (String × List String) → List (String × List String)
  | [] => [(dest, values)]
  | (d, vs) :: rest =>
    if d = dest then (d, vs ++ values) :: rest else (d, vs) :: extend dest values rest

/-- Note that a destination has been seen. -/
def touch (p : ParsedValues) (dest : String) : ParsedValues :=
  ⟨extend dest [] p.entries⟩

/-- Add a value to a destination. -/
def record (p : ParsedValues) (dest value : String) : ParsedValues :=
  ⟨extend dest [value] p.entries⟩

/-- The entries in the order of their destinations. -/
def byDest (p : ParsedValues) : List (String × List String) :=
  p.entries.mergeSort fun a b => !(b.1 < a.1)

theorem lookup_cons_eq (k d : String) (vs : List String) (es : List (String × List String)) :
    ((k, vs) :: es).lookup d = if d = k then some vs else es.lookup d := by
  by_cases h : d = k
  · simp [h]
  · have hb : (d == k) = false := by simpa using h
    simp [List.lookup_cons, hb, h]

theorem lookup_extend (dest d : String) (values : List String) (es : List (String × List String)) :
    (extend dest values es).lookup d
      = if d = dest then some ((es.lookup d).getD [] ++ values) else es.lookup d := by
  induction es with
  | nil => simp [extend, lookup_cons_eq]
  | cons e es ih =>
    obtain ⟨k, vs⟩ := e
    by_cases hk : k = dest
    · subst hk
      by_cases hd : d = k <;> simp [extend, lookup_cons_eq, hd]
    · by_cases hd : d = k
      · subst hd
        simp [extend, hk]
      · simp [extend, lookup_cons_eq, hk, hd, ih]

/-- Recording adds the value to its destination and leaves the others as they are. -/
theorem get?_record (p : ParsedValues) (dest value d : String) :
    (p.record dest value).get? d
      = if d = dest then some ((p.get? d).getD [] ++ [value]) else p.get? d :=
  lookup_extend dest d [value] p.entries

/-- A destination that was touched is seen; no values change. -/
theorem get?_touch (p : ParsedValues) (dest d : String) :
    (p.touch dest).get? d = if d = dest then some ((p.get? d).getD []) else p.get? d := by
  have h := lookup_extend dest d [] p.entries
  simpa [touch, get?] using h

end ParsedValues

end TabCompletion
