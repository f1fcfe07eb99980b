import TabCompletion.Toml.Scalar
import TabCompletion.Toml.Table
import TabCompletion.Toml.Token

/-!
# Reading a TOML text

The tokens are read from the left with a stack of the lists and braced tables that are still open
and, below them, the key whose value is being read. Complete values are added to the table of the
last header.
-/

namespace TabCompletion.Toml

/-- A list or braced table that is still open, or the key whose value is being read. List items are
    kept with the last one first. `member` is a braced table together with such a key. -/
inductive Frame where
  | entry (keys : List String)
  | list (items : List Value)
  | braces (entries : Entries)
  | member (entries : Entries) (keys : List String)

/-- What a key belongs to. -/
inductive KeyRole where
  | entry
  | tableHeader
  | itemHeader
  | member
deriving DecidableEq

/-- Where the reading stands. The keys read are kept with the last one first, and so are the
    characters of a scalar. -/
inductive Place where
  | lineStart
  | headerStart
  | keyPart (role : KeyRole) (keys : List String)
  | afterKey (role : KeyRole) (keys : List String)
  | itemHeaderEnd (keys : List String)
  | value
  | scalar (cs : List Char)
  | scalarSpace (cs : List Char)
  | item
  | afterItem
  | firstMember
  | afterMember
  | lineEnd

/-- The state of the reading: the open frames, the innermost first; the place; the table named by
    the last header; and all entries so far. -/
structure Reading where
  stack : List Frame
  place : Place
  table : List String
  root : Entries

namespace Reading

/-- The start of a text. -/
def start : Reading := ⟨[], .lineStart, [], []⟩

/-- The number of lists and braced tables that may be open at once. -/
def maxDepth : Nat := 80

/-- The number of open lists and braced tables. -/
def depth (r : Reading) : Nat :=
  r.stack.countP fun
    | .list _ => true
    | .braces _ => true
    | .member .. => true
    | .entry _ => false

/-- Open a list or braced table. -/
def push (r : Reading) (f : Frame) (place : Place) : Option Reading :=
  if r.depth < maxDepth then some { r with stack := f :: r.stack, place } else none

/-- Take in a complete value. -/
def complete (r : Reading) (v : Value) : Option Reading :=
  match r.stack with
  | .entry keys :: rest =>
    (insertBelow? r.table keys v r.root).map fun root =>
      { r with stack := rest, place := .lineEnd, root }
  | .list items :: rest => some { r with stack := .list (v :: items) :: rest, place := .afterItem }
  | .member es keys :: rest =>
    (insert? keys v .braced es).map fun (_, es) =>
      { r with stack := .braces es :: rest, place := .afterMember }
  | _ => none

/-- The end of a list. -/
def closeList (r : Reading) : Option Reading :=
  match r.stack with
  | .list items :: rest => { r with stack := rest }.complete (.list false items.reverse)
  | _ => none

/-- The end of a braced table. -/
def closeBraces (r : Reading) : Option Reading :=
  match r.stack with
  | .braces es :: rest => { r with stack := rest }.complete (.table .braced es)
  | _ => none

/-- A key is complete: its value comes next. -/
def openEntry (r : Reading) (keys : List String) : Option Reading :=
  some { r with stack := .entry keys :: r.stack, place := .value }

/-- A key of a braced table is complete: its value comes next. -/
def openMember (r : Reading) (keys : List String) : Option Reading :=
  match r.stack with
  | .braces es :: rest => some { r with stack := .member es keys :: rest, place := .value }
  | _ => none

/-- The header of a table is complete. -/
def openTable (r : Reading) (keys : List String) : Option Reading :=
  (openTable? keys r.root).map fun root => { r with place := .lineEnd, table := keys, root }

/-- The header of an item of a list of tables is complete. -/
def openItem (r : Reading) (keys : List String) : Option Reading :=
  (openItem? keys r.root).map fun root => { r with place := .lineEnd, table := keys, root }

/-- Whether the character may stand in a key without quotes. -/
def isKeyChar (c : Char) : Bool :=
  c.isAlphanum || c = '-' || c = '_'

/-- The key that a token is. -/
def key? : Token → Option String
  | .text false s => some s
  | .run cs => if cs.all isKeyChar then some (String.ofList cs) else none
  | _ => none

/-- A token where a part of a key is expected. -/
def stepKey (r : Reading) (role : KeyRole) (keys : List String) (t : Token) : Option Reading :=
  match t with
  | .space => some r
  | t => (key? t).map fun k => { r with place := .afterKey role (k :: keys) }

/-- A token behind a part of a key. -/
def stepAfterKey (r : Reading) (role : KeyRole) (keys : List String) (t : Token) : Option Reading :=
  match t, role with
  | .space, _ => some r
  | .dot, _ => some { r with place := .keyPart role keys }
  | .equals, .entry => r.openEntry keys.reverse
  | .equals, .member => r.openMember keys.reverse
  | .closeBracket, .tableHeader => r.openTable keys.reverse
  | .closeBracket, .itemHeader => some { r with place := .itemHeaderEnd keys }
  | _, _ => none

/-- A token where a value begins. -/
def stepValue (r : Reading) (t : Token) : Option Reading :=
  match t with
  | .text _ s => r.complete (.text s)
  | .run cs => some { r with place := .scalar cs.reverse }
  | .openBracket => r.push (.list []) .item
  | .openBrace => r.push (.braces []) .firstMember
  | _ => none

/-- A token behind an item of a list. -/
def stepAfterItem (r : Reading) (t : Token) : Option Reading :=
  match t with
  | .space | .newline => some r
  | .comma => some { r with place := .item }
  | .closeBracket => r.closeList
  | _ => none

/-- A token behind a member of a braced table. -/
def stepAfterMember (r : Reading) (t : Token) : Option Reading :=
  match t with
  | .space | .newline => some r
  | .comma => some { r with place := .firstMember }
  | .closeBrace => r.closeBraces
  | _ => none

/-- A token behind an entry or a header. -/
def stepLineEnd (r : Reading) (t : Token) : Option Reading :=
  match t with
  | .space => some r
  | .newline => some { r with place := .lineStart }
  | _ => none

/-- A token behind a complete value, whatever holds it. -/
def stepAfterValue (r : Reading) (t : Token) : Option Reading :=
  match r.place with
  | .afterItem => r.stepAfterItem t
  | .afterMember => r.stepAfterMember t
  | .lineEnd => r.stepLineEnd t
  | _ => none

/-- The scalar that has been read is complete; the token comes behind it. -/
def endScalar (r : Reading) (cs : List Char) (t : Token) : Option Reading :=
  (scalar? cs.reverse).bind fun v => (r.complete v).bind (·.stepAfterValue t)

/-- A token in a scalar. A date may go on behind one space with a time. -/
def stepScalar (r : Reading) (cs : List Char) (t : Token) : Option Reading :=
  match t with
  | .dot => some { r with place := .scalar ('.' :: cs) }
  | .run ds => some { r with place := .scalar (ds.reverse ++ cs) }
  | .space =>
    if isDate cs.reverse then some { r with place := .scalarSpace cs } else r.endScalar cs t
  | t => r.endScalar cs t

/-- A token behind a date and one space. -/
def stepScalarSpace (r : Reading) (cs : List Char) (t : Token) : Option Reading :=
  match t with
  | .run ds =>
    if (ds.head?.map Char.isDigit).getD false then
      some { r with place := .scalar (ds.reverse ++ ' ' :: cs) }
    else none
  | t => r.endScalar cs t

/-- A token at the start of a line. -/
def stepLineStart (r : Reading) (t : Token) : Option Reading :=
  match t with
  | .space | .newline => some r
  | .openBracket => some { r with place := .headerStart }
  | t => r.stepKey .entry [] t

/-- Read one token. -/
def step (r : Reading) (t : Token) : Option Reading :=
  match r.place with
  | .lineStart => r.stepLineStart t
  | .headerStart => match t with
    | .openBracket => some { r with place := .keyPart .itemHeader [] }
    | .space => some { r with place := .keyPart .tableHeader [] }
    | t => r.stepKey .tableHeader [] t
  | .keyPart role keys => r.stepKey role keys t
  | .afterKey role keys => r.stepAfterKey role keys t
  | .itemHeaderEnd keys => match t with
    | .closeBracket => r.openItem keys.reverse
    | _ => none
  | .value => match t with
    | .space => some r
    | t => r.stepValue t
  | .scalar cs => r.stepScalar cs t
  | .scalarSpace cs => r.stepScalarSpace cs t
  | .item => match t with
    | .space | .newline => some r
    | .closeBracket => r.closeList
    | t => r.stepValue t
  | .afterItem => r.stepAfterItem t
  | .firstMember => match t with
    | .space | .newline => some r
    | .closeBrace => r.closeBraces
    | t => r.stepKey .member [] t
  | .afterMember => r.stepAfterMember t
  | .lineEnd => r.stepLineEnd t

/-- The entries, if the text may end at this place. -/
def settled? (r : Reading) : Option Entries :=
  match r.place with
  | .lineStart | .lineEnd => some r.root
  | _ => none

/-- The entries, if the text may end here. -/
def finish (r : Reading) : Option Entries :=
  match r.place with
  | .scalar cs | .scalarSpace cs => (r.endScalar cs .newline).bind settled?
  | _ => r.settled?

end Reading

/-- The value of a TOML text. -/
def parse? (s : String) : Option Value :=
  (tokens? s.toList).bind fun ts =>
    ((ts.foldlM Reading.step Reading.start).bind Reading.finish).map (.table .header)

end TabCompletion.Toml
