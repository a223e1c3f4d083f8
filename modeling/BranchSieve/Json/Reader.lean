import BranchSieve.Json.Basic
import BranchSieve.Json.Token

/-!
# Reading JSON

The tokens of a text are read one by one. The state says what may come next, and a stack of frames
says what encloses it, the innermost frame first; so values nest to any depth. A text is accepted
if its tokens make one value and nothing follows it.
-/

namespace BranchSieve.Json

/-- An array or an object whose end has not come. -/
inductive Frame where
  /-- An array with its elements so far, the last one first. -/
  | array (done : List Json)
  /-- An object with its members so far, the last one first, and the key whose value is awaited. -/
  | object (done : List (List CodePoint × Json)) (key : List CodePoint)
  deriving Repr

/-- How far a text has been read, by what may come next. -/
inductive Reading where
  /-- A value. -/
  | wantValue (frames : List Frame)
  /-- The first element of an array or its end. -/
  | wantElement (frames : List Frame)
  /-- The first key of an object or its end. -/
  | wantMember (frames : List Frame)
  /-- A further key of an object. -/
  | wantKey (frames : List Frame) (done : List (List CodePoint × Json))
  /-- The colon behind a key. -/
  | wantColon (frames : List Frame) (done : List (List CodePoint × Json)) (key : List CodePoint)
  /-- What follows a value. -/
  | gotValue (frames : List Frame) (value : Json)
  deriving Repr

namespace Reading

/-- The state after the first token of a value. -/
def startValue? (frames : List Frame) : Token → Option Reading
  | .null => some (.gotValue frames .null)
  | .bool value => some (.gotValue frames (.bool value))
  | .number text => some (.gotValue frames (.number text))
  | .string points => some (.gotValue frames (.string points))
  | .openArray => some (.wantElement frames)
  | .openObject => some (.wantMember frames)
  | _ => none

/-- The state after a token. -/
def step? : Reading → Token → Option Reading
  | .wantValue frames, token => startValue? frames token
  | .wantElement frames, .closeArray => some (.gotValue frames (.array []))
  | .wantElement frames, token => startValue? (.array [] :: frames) token
  | .wantMember frames, .closeObject => some (.gotValue frames (.object []))
  | .wantMember frames, .string key => some (.wantColon frames [] key)
  | .wantKey frames done, .string key => some (.wantColon frames done key)
  | .wantColon frames done key, .colon => some (.wantValue (.object done key :: frames))
  | .gotValue (.array done :: frames) value, .comma =>
    some (.wantValue (.array (value :: done) :: frames))
  | .gotValue (.array done :: frames) value, .closeArray =>
    some (.gotValue frames (.array (value :: done).reverse))
  | .gotValue (.object done key :: frames) value, .comma =>
    some (.wantKey frames ((key, value) :: done))
  | .gotValue (.object done key :: frames) value, .closeObject =>
    some (.gotValue frames (.object ((key, value) :: done).reverse))
  | _, _ => none

/-- The value that has been read when the text ends. -/
def finish? : Reading → Option Json
  | .gotValue [] value => some value
  | _ => none

end Reading

/-- The value of a text. -/
def parse? (text : String) : Option Json := do
  let tokens ← tokens? text.toList
  let state ← tokens.foldlM Reading.step? (.wantValue [])
  state.finish?

end BranchSieve.Json
