import TabCompletion.Json.Token

/-!
# Reading a JSON text

The tokens are read from the left with a stack of the lists and objects that are still open.
Nesting is not bounded here; who reads a value bounds the part of it that is looked at.
-/

namespace TabCompletion.Json

/-- A list or object that is still open, its parts with the last one first. `member` is an object
    together with the key of the value that comes next. -/
inductive Frame where
  | list (items : List Value)
  | object (members : List (Option String × Value))
  | member (members : List (Option String × Value)) (key : Option String)

/-- What may come next. -/
inductive Awaited where
  | value
  | itemOrClose
  | keyOrClose
  | key
  | colon
  | separator
  | nothing

/-- The open lists and objects, the innermost first, what may come next, and the value of the
    whole text once it is complete. -/
structure Reading where
  stack : List Frame
  awaited : Awaited
  result : Option Value

namespace Reading

/-- The start of a text. -/
def start : Reading := ⟨[], .value, none⟩

/-- A complete value takes its place in the innermost open list or object. -/
def complete (v : Value) : List Frame → Option Reading
  | [] => some ⟨[], .nothing, some v⟩
  | .list items :: rest => some ⟨.list (v :: items) :: rest, .separator, none⟩
  | .member ms k :: rest => some ⟨.object ((k, v) :: ms) :: rest, .separator, none⟩
  | .object _ :: _ => none

/-- A value begins. -/
def stepValue (stack : List Frame) : Token → Option Reading
  | .atom v => complete v stack
  | .openList => some ⟨.list [] :: stack, .itemOrClose, none⟩
  | .openObject => some ⟨.object [] :: stack, .keyOrClose, none⟩
  | _ => none

/-- The innermost open list or object ends. -/
def stepClose (stack : List Frame) (t : Token) : Option Reading :=
  match stack, t with
  | .list items :: rest, .closeList => complete (.list items.reverse) rest
  | .object ms :: rest, .closeObject => complete (.object ms.reverse) rest
  | _, _ => none

/-- A key begins. -/
def stepKey (stack : List Frame) (t : Token) : Option Reading :=
  match stack, t with
  | .object ms :: rest, .atom (.text k) => some ⟨.member ms k :: rest, .colon, none⟩
  | _, _ => none

/-- Another part of the innermost open list or object is announced, or it ends. -/
def stepSeparator (stack : List Frame) (t : Token) : Option Reading :=
  match stack, t with
  | .list items :: rest, .comma => some ⟨.list items :: rest, .value, none⟩
  | .object ms :: rest, .comma => some ⟨.object ms :: rest, .key, none⟩
  | stack, t => stepClose stack t

/-- Read one token. -/
def step (r : Reading) (t : Token) : Option Reading :=
  match r.awaited with
  | .value => stepValue r.stack t
  | .itemOrClose => (stepClose r.stack t).or (stepValue r.stack t)
  | .keyOrClose => (stepClose r.stack t).or (stepKey r.stack t)
  | .key => stepKey r.stack t
  | .colon => match t with
    | .colon => some ⟨r.stack, .value, none⟩
    | _ => none
  | .separator => stepSeparator r.stack t
  | .nothing => none

end Reading

/-- The value of a JSON text. -/
def parse? (s : String) : Option Value :=
  (tokens? s.toList).bind fun ts => (ts.foldlM Reading.step Reading.start).bind (·.result)

end TabCompletion.Json
