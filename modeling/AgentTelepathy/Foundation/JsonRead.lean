import AgentTelepathy.Foundation.Dict
import AgentTelepathy.Foundation.JsonText

/-!
# Reading JSON text

`loads` reads one JSON value as Python's `json.loads` does: blanks between
tokens, the three names of values that are not finite, the last value of a
repeated key, and no control characters inside strings. Strings are sequences
of characters, so text with an unpaired surrogate escape is not read.
-/

namespace Foundation

namespace JsonText

/-- Drop the blanks between tokens. -/
def skipBlanks (cs : List Char) : List Char :=
  cs.dropWhile fun c => c = ' ' ∨ c = '\t' ∨ c = '\n' ∨ c = '\r'

/-- Read the characters of a string up to its closing quote. -/
def readString : ℕ → List Char → Option (List Char × List Char)
  | 0, _ => none
  | fuel + 1, cs =>
    match cs with
    | '"' :: rest => some ([], rest)
    | cs =>
      (unescape cs).bind fun (c, rest) =>
        (readString fuel rest).map fun (s, rest) => (c :: s, rest)

/-- The integer part at the start of a number: one zero, or digits that do not
start with zero. -/
def wholeToken (cs : List Char) : List Char :=
  match cs with
  | '0' :: _ => ['0']
  | cs => cs.takeWhile Char.isDigit

/-- The fraction that follows, if a digit stands after the point. -/
def fracToken : List Char → List Char
  | '.' :: cs =>
    let ds := cs.takeWhile Char.isDigit
    if ds = [] then [] else '.' :: ds
  | _ => []

/-- The exponent that follows, if it has a digit. -/
def expToken : List Char → List Char
  | c :: cs =>
    if c = 'e' ∨ c = 'E' then
      match cs with
      | '-' :: ds => if ds.takeWhile Char.isDigit = [] then [] else c :: '-' :: ds.takeWhile
          Char.isDigit
      | '+' :: ds => if ds.takeWhile Char.isDigit = [] then [] else c :: '+' :: ds.takeWhile
          Char.isDigit
      | ds => if ds.takeWhile Char.isDigit = [] then [] else c :: ds.takeWhile Char.isDigit
    else []
  | [] => []

/-- Read a number without its sign: an integer without fraction and exponent,
else a float. -/
def readNumber (neg : Bool) (cs : List Char) : Option (Json × List Char) :=
  let whole := wholeToken cs
  let frac := fracToken (cs.drop whole.length)
  let exp := expToken (cs.drop (whole.length + frac.length))
  let rest := cs.drop (whole.length + frac.length + exp.length)
  if whole = [] then none
  else if frac = [] ∧ exp = [] then
    let n : ℤ := Float64.digitsValue whole
    some (.int (if neg then -n else n), rest)
  else (Float64.readUnsigned neg (whole ++ frac ++ exp)).map fun f => (.float f, rest)

/-- Read a literal or a number. -/
def readScalar (cs : List Char) : Option (Json × List Char) :=
  match cs with
  | 'n' :: 'u' :: 'l' :: 'l' :: rest => some (.null, rest)
  | 't' :: 'r' :: 'u' :: 'e' :: rest => some (.bool true, rest)
  | 'f' :: 'a' :: 'l' :: 's' :: 'e' :: rest => some (.bool false, rest)
  | 'N' :: 'a' :: 'N' :: rest => some (.float .nan, rest)
  | 'I' :: 'n' :: 'f' :: 'i' :: 'n' :: 'i' :: 't' :: 'y' :: rest =>
    some (.float (.infinite false), rest)
  | '-' :: 'I' :: 'n' :: 'f' :: 'i' :: 'n' :: 'i' :: 't' :: 'y' :: rest =>
    some (.float (.infinite true), rest)
  | '-' :: rest => readNumber true rest
  | cs => readNumber false cs

mutual

/-- Read one value. -/
def readValue : ℕ → List Char → Option (Json × List Char)
  | 0, _ => none
  | fuel + 1, cs =>
    match cs with
    | '"' :: rest =>
      (readString (fuel + 1) rest).map fun (s, rest) => (.str (String.ofList s), rest)
    | '[' :: rest =>
      match skipBlanks rest with
      | ']' :: rest => some (.arr [], rest)
      | rest => (readItems fuel rest).map fun (l, rest) => (.arr l, rest)
    | '{' :: rest =>
      match skipBlanks rest with
      | '}' :: rest => some (.obj [], rest)
      | rest =>
        (readMembers fuel rest).map fun (l, rest) =>
          (.obj (Dict.ofItems l).items, rest)
    | cs => readScalar cs

/-- Read the items of an array up to its closing bracket. -/
def readItems : ℕ → List Char → Option (List Json × List Char)
  | 0, _ => none
  | fuel + 1, cs =>
    (readValue fuel cs).bind fun (v, rest) =>
      match skipBlanks rest with
      | ']' :: rest => some ([v], rest)
      | ',' :: rest => (readItems fuel (skipBlanks rest)).map fun (l, rest) => (v :: l, rest)
      | _ => none

/-- Read the members of an object up to its closing brace. -/
def readMembers : ℕ → List Char → Option (List (String × Json) × List Char)
  | 0, _ => none
  | fuel + 1, cs =>
    match cs with
    | '"' :: rest =>
      (readString (fuel + 1) rest).bind fun (k, rest) =>
        match skipBlanks rest with
        | ':' :: rest =>
          (readValue fuel (skipBlanks rest)).bind fun (v, rest) =>
            match skipBlanks rest with
            | '}' :: rest => some ([(String.ofList k, v)], rest)
            | ',' :: rest =>
              (readMembers fuel (skipBlanks rest)).map fun (l, rest) =>
                ((String.ofList k, v) :: l, rest)
            | _ => none
        | _ => none
    | _ => none

end

/-- Read one value and nothing else. -/
def loadsChars (cs : List Char) : Option Json :=
  (readValue (cs.length + 1) (skipBlanks cs)).bind fun (v, rest) =>
    if skipBlanks rest = [] then some v else none

/-- `json.loads`; nothing where it raises `JSONDecodeError`. -/
def loads (text : String) : Option Json := loadsChars text.toList

theorem loads_ofList (cs : List Char) : loads (String.ofList cs) = loadsChars cs := by
  rw [loads, String.toList_ofList]

example : loads " \x7b\"a\": [1, -2.5e3, \"\\u00e9\\n\"], \"b\": null, \"a\": true\x7d" =
    some (.obj [("a", .bool true), ("b", .null)]) := by decide +kernel

end JsonText

end Foundation
