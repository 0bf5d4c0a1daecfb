import AiSdlc.Js.JsonParse

/-! JSON with one liberty: in strings, control characters may stand as they are. -/

namespace AiSdlc.Js

namespace Json

/-- Reads a string behind its opening quotation mark, where control characters may be left raw. -/
def readRawString : List Char → Option (CodeUnits × List Char)
  | [] => none
  | '"' :: rest => some ([], rest)
  | '\\' :: 'u' :: first :: second :: third :: fourth :: rest => do
      let unit ← hexUnit? [first, second, third, fourth]
      let (units, rest) ← readRawString rest
      some (unit :: units, rest)
  | '\\' :: char :: rest => do
      let unit ← escapeUnit? char
      let (units, rest) ← readRawString rest
      some (unit :: units, rest)
  | char :: rest =>
      if char = '\\' then none
      else do
        let (units, rest) ← readRawString rest
        some (charUnits char ++ units, rest)

/-- A raw line break and an escaped one are the same. -/
example : readRawString ['\n', '\\', 'n', '"'] = some ([10, 10], []) := by
  decide

section Values

variable {Number : Type} (toNumber : List Char → Number)

mutual

/-- Reads a value whose strings may hold raw control characters. -/
def readRawValue : Nat → List Char → Option (Json Number × List Char)
  | 0, _ => none
  | fuel + 1, chars =>
      match skipSpace chars with
      | 'n' :: 'u' :: 'l' :: 'l' :: rest => some (null, rest)
      | 't' :: 'r' :: 'u' :: 'e' :: rest => some (bool true, rest)
      | 'f' :: 'a' :: 'l' :: 's' :: 'e' :: rest => some (bool false, rest)
      | '"' :: rest => (readRawString rest).map fun (units, rest) => (string units, rest)
      | '[' :: rest =>
          match skipSpace rest with
          | ']' :: rest => some (array [], rest)
          | rest => (readRawItems fuel rest).map fun (items, rest) => (array items, rest)
      | '{' :: rest =>
          match skipSpace rest with
          | '}' :: rest => some (object [], rest)
          | rest =>
              (readRawMembers fuel rest).map fun (members, rest) =>
                (object (members.foldl setMember []), rest)
      | rest => (readNumber rest).map fun (literal, rest) => (number (toNumber literal), rest)

/-- Reads the items of an array, up to its closing bracket. -/
def readRawItems : Nat → List Char → Option (List (Json Number) × List Char)
  | 0, _ => none
  | fuel + 1, chars => do
      let (item, rest) ← readRawValue fuel chars
      match skipSpace rest with
      | ',' :: rest => do
          let (items, rest) ← readRawItems fuel rest
          some (item :: items, rest)
      | ']' :: rest => some ([item], rest)
      | _ => none

/-- Reads the members of an object, up to its closing brace. -/
def readRawMembers : Nat → List Char → Option (List (CodeUnits × Json Number) × List Char)
  | 0, _ => none
  | fuel + 1, chars =>
      match skipSpace chars with
      | '"' :: rest => do
          let (key, rest) ← readRawString rest
          match skipSpace rest with
          | ':' :: rest => do
              let (value, rest) ← readRawValue fuel rest
              match skipSpace rest with
              | ',' :: rest => do
                  let (members, rest) ← readRawMembers fuel rest
                  some ((key, value) :: members, rest)
              | '}' :: rest => some ([(key, value)], rest)
              | _ => none
          | _ => none
      | _ => none

end

/-- The value that a text renders, where control characters in strings may be left raw. -/
def parseRaw (text : String) : Option (Json Number) :=
  match readRawValue toNumber (2 * text.toList.length + 1) text.toList with
  | some (value, rest) => if skipSpace rest = [] then some value else none
  | none => none

end Values

end Json

end AiSdlc.Js
