import TreeQuery.Json.Token

/-!
# Values of JSON

A value is read from tokens one token at a time. A reading keeps the containers that are open
around the token, the innermost first, and what may come next; no more than `depthLimit` containers
may be open at once. An object keeps its entries in the order written, also those whose name was
given before.
-/
namespace TreeQuery.Json

/-- A value. -/
inductive Value where
  /-- No value. -/
  | null
  /-- A truth value. -/
  | bool (value : Bool)
  /-- A number. -/
  | number (value : Number)
  /-- A string. -/
  | string (value : String)
  /-- Values in order. -/
  | array (items : List Value)
  /-- Names with values in order. -/
  | object (entries : List (String × Value))
  deriving Repr

/-- How many arrays and objects may be open at once. -/
def depthLimit : Nat := 127

/-- A container around the value that is being read. -/
inductive Frame where
  /-- An array, with the items before, the last one first. -/
  | array (items : List Value)
  /-- An object, with the entries before, the last one first, and the name of the value. -/
  | object (entries : List (String × Value)) (name : String)

/-- What may come next. -/
inductive Awaited where
  /-- A value. -/
  | value
  /-- The first item of an array, or its end. -/
  | firstItem
  /-- The first name of an object, or its end. -/
  | firstName
  /-- A name behind the entries of an object, the last one first. -/
  | name (entries : List (String × Value))
  /-- A colon behind a name. -/
  | colon (entries : List (String × Value)) (name : String)
  /-- What goes on behind a value. -/
  | after (value : Value)

/-- How far the reading of a value has come. -/
structure Reading where
  /-- The open containers, the innermost first. An object counts while a value of it is read. -/
  frames : List Frame
  /-- What may come next. -/
  awaited : Awaited

namespace Reading

/-- A reading at the front of a text. -/
def start : Reading := ⟨[], .value⟩

/-- Reads a token where a value may begin. -/
def beginValue (frames : List Frame) : Token → Option Reading
  | .null => some ⟨frames, .after .null⟩
  | .bool value => some ⟨frames, .after (.bool value)⟩
  | .number value => some ⟨frames, .after (.number value)⟩
  | .string value => some ⟨frames, .after (.string value)⟩
  | .openArray =>
    if frames.length < depthLimit then some ⟨.array [] :: frames, .firstItem⟩ else none
  | .openObject => if frames.length < depthLimit then some ⟨frames, .firstName⟩ else none
  | _ => none

/-- Reads a token behind a value. -/
def afterValue (value : Value) : List Frame → Token → Option Reading
  | .array items :: frames, .comma => some ⟨.array (value :: items) :: frames, .value⟩
  | .array items :: frames, .closeArray =>
    some ⟨frames, .after (.array (value :: items).reverse)⟩
  | .object entries name :: frames, .comma => some ⟨frames, .name ((name, value) :: entries)⟩
  | .object entries name :: frames, .closeObject =>
    some ⟨frames, .after (.object ((name, value) :: entries).reverse)⟩
  | _, _ => none

/-- Reads a token. -/
def step (reading : Reading) (token : Token) : Option Reading :=
  match reading.awaited, token with
  | .value, token => beginValue reading.frames token
  | .firstItem, .closeArray => some ⟨reading.frames.tail, .after (.array [])⟩
  | .firstItem, token => beginValue reading.frames token
  | .firstName, .closeObject => some ⟨reading.frames, .after (.object [])⟩
  | .firstName, .string name => some ⟨reading.frames, .colon [] name⟩
  | .name entries, .string name => some ⟨reading.frames, .colon entries name⟩
  | .colon entries name, .colon => some ⟨.object entries name :: reading.frames, .value⟩
  | .after value, token => afterValue value reading.frames token
  | _, _ => none

/-- The value of a reading that has come to its end. -/
def finished? : Reading → Option Value
  | ⟨[], .after value⟩ => some value
  | _ => none

end Reading

namespace Value

/-- The value that tokens write. -/
def ofTokens? (tokens : List Token) : Option Value :=
  (tokens.foldlM Reading.step .start).bind Reading.finished?

/-- The value that a text writes. -/
def ofText? (text : String) : Option Value := (Token.ofText? text.toList).bind ofTokens?

mutual

/-- The tokens that write a value. -/
def tokens : Value → List Token
  | null => [.null]
  | bool value => [.bool value]
  | number value => [.number value]
  | string value => [.string value]
  | array items => .openArray :: itemTokens items ++ [.closeArray]
  | object entries => .openObject :: entryTokens entries ++ [.closeObject]

/-- The tokens that write items, with commas between them. -/
def itemTokens : List Value → List Token
  | [] => []
  | [item] => item.tokens
  | item :: rest => item.tokens ++ .comma :: itemTokens rest

/-- The tokens that write entries, with commas between them. -/
def entryTokens : List (String × Value) → List Token
  | [] => []
  | [(name, value)] => .string name :: .colon :: value.tokens
  | (name, value) :: rest =>
    .string name :: .colon :: value.tokens ++ .comma :: entryTokens rest

end

/-- The text of a value, without blanks. -/
def toText (value : Value) : String := String.ofList (value.tokens.flatMap Token.toText)

end Value

end TreeQuery.Json
