/-!
# JSON text

A reader for JSON values, and the compact text of an object. The reader takes the whole grammar but
keeps only what a configuration can use: whole numbers from zero up keep their value, other numbers
only their place. A string keeps its text unless it escapes half of a surrogate pair, which no text
can hold; such a string may stand anywhere, it just equals no other.
-/

namespace RadioBoot

inductive Json where
  | null
  | bool (b : Bool)
  | natural (n : Nat)
  /-- A number with a sign, a fraction or an exponent. -/
  | otherNumber
  | string (text : Option String)
  | array (items : List Json)
  /-- Members in order, with repeated names. -/
  | object (members : List (Option String × Json))

namespace Json

/-- The blanks of JSON. -/
def isBlank (c : Char) : Bool := c = ' ' || c = '\n' || c = '\t' || c = '\r'

def skipBlanks (cs : List Char) : List Char := cs.dropWhile isBlank

/-! ## Numbers -/

def digitValue (c : Char) : Nat := c.toNat - '0'.toNat

/-- The number that digits write. -/
def naturalOf (digits : List Char) : Nat := digits.foldl (fun n c ↦ 10 * n + digitValue c) 0

/-- One digit or more. -/
def digits? (cs : List Char) : Option (List Char × List Char) :=
  match cs.takeWhile Char.isDigit with
  | [] => none
  | ds => some (ds, cs.dropWhile Char.isDigit)

/-- The digits in front of a point or an exponent: more than one do not start with zero. -/
def integer? (cs : List Char) : Option (Nat × List Char) :=
  match digits? cs with
  | some ('0' :: _ :: _, _) => none
  | some (ds, rest) => some (naturalOf ds, rest)
  | none => none

/-- An exponent may be missing; one that starts needs a digit. -/
def exponent? (cs : List Char) : Option (Bool × List Char) :=
  let after (rest : List Char) := (digits? rest).map fun x ↦ (true, x.2)
  match cs with
  | 'e' :: '+' :: rest | 'E' :: '+' :: rest | 'e' :: '-' :: rest | 'E' :: '-' :: rest => after rest
  | 'e' :: rest | 'E' :: rest => after rest
  | _ => some (false, cs)

/-- A fraction may be missing; one that starts needs a digit. -/
def fraction? (cs : List Char) : Option (Bool × List Char) :=
  match cs with
  | '.' :: rest => (digits? rest).map fun x ↦ (true, x.2)
  | _ => some (false, cs)

def number? (cs : List Char) : Option (Json × List Char) := do
  let (negative, cs) := match cs with | '-' :: rest => (true, rest) | _ => (false, cs)
  let (n, cs) ← integer? cs
  let (fractional, cs) ← fraction? cs
  let (scaled, cs) ← exponent? cs
  return (if negative || fractional || scaled then otherNumber else natural n, cs)

/-! ## Strings -/

/-- A part of a string: a character as it stands, or a 16-bit unit written as an escape. -/
inductive Piece where
  | char (c : Char)
  | unit (n : Nat)

def hexValue? (c : Char) : Option Nat :=
  if c.isDigit then some (digitValue c)
  else if 'a' ≤ c ∧ c ≤ 'f' then some (c.toNat - 'a'.toNat + 10)
  else if 'A' ≤ c ∧ c ≤ 'F' then some (c.toNat - 'A'.toNat + 10)
  else none

/-- What stands behind a backslash. -/
def escape? : List Char → Option (Piece × List Char)
  | '"' :: rest => some (.char '"', rest)
  | '\\' :: rest => some (.char '\\', rest)
  | '/' :: rest => some (.char '/', rest)
  | 'b' :: rest => some (.char '\x08', rest)
  | 'f' :: rest => some (.char '\x0c', rest)
  | 'n' :: rest => some (.char '\n', rest)
  | 'r' :: rest => some (.char '\r', rest)
  | 't' :: rest => some (.char '\t', rest)
  | 'u' :: a :: b :: c :: d :: rest => do
    let a ← hexValue? a
    let b ← hexValue? b
    let c ← hexValue? c
    let d ← hexValue? d
    return (.unit (((a * 16 + b) * 16 + c) * 16 + d), rest)
  | _ => none

/-- The pieces of a string up to its closing quote. Control characters must be escaped. The fuel is
a bound on the pieces. -/
def pieces? : (fuel : Nat) → List Char → Option (List Piece × List Char)
  | 0, _ => none
  | _ + 1, [] => none
  | _ + 1, '"' :: rest => some ([], rest)
  | fuel + 1, '\\' :: rest => do
    let (piece, rest) ← escape? rest
    let (more, rest) ← pieces? fuel rest
    return (piece :: more, rest)
  | fuel + 1, c :: rest => do
    guard (' ' ≤ c)
    let (more, rest) ← pieces? fuel rest
    return (.char c :: more, rest)

def isHighSurrogate (n : Nat) : Bool := 0xD800 ≤ n && n < 0xDC00

def isLowSurrogate (n : Nat) : Bool := 0xDC00 ≤ n && n < 0xE000

/-- The text of pieces: escaped surrogates must come in pairs, high before low. -/
def text? : List Piece → Option (List Char)
  | [] => some []
  | .char c :: rest => (text? rest).map (c :: ·)
  | .unit n :: .unit m :: rest =>
    if isHighSurrogate n && isLowSurrogate m then
      (text? rest).map (.ofNat (0x10000 + (n - 0xD800) * 0x400 + (m - 0xDC00)) :: ·)
    else if isHighSurrogate n || isLowSurrogate n then
      none
    else
      (text? (.unit m :: rest)).map (.ofNat n :: ·)
  | .unit n :: rest =>
    if isHighSurrogate n || isLowSurrogate n then none else (text? rest).map (.ofNat n :: ·)

/-- A string, from behind its opening quote. -/
def string? (cs : List Char) : Option (Option String × List Char) :=
  (pieces? cs.length cs).map fun x ↦ ((text? x.1).map String.ofList, x.2)

/-! ## Values -/

mutual

/-- A value, after blanks. The fuel is a bound on how many calls are nested. -/
def value? : (fuel : Nat) → List Char → Option (Json × List Char)
  | 0, _ => none
  | fuel + 1, cs =>
    match skipBlanks cs with
    | 'n' :: 'u' :: 'l' :: 'l' :: rest => some (.null, rest)
    | 't' :: 'r' :: 'u' :: 'e' :: rest => some (.bool true, rest)
    | 'f' :: 'a' :: 'l' :: 's' :: 'e' :: rest => some (.bool false, rest)
    | '"' :: rest => (string? rest).map fun x ↦ (.string x.1, x.2)
    | '[' :: rest =>
      match skipBlanks rest with
      | ']' :: rest => some (.array [], rest)
      | rest => (items? fuel rest).map fun x ↦ (.array x.1, x.2)
    | '{' :: rest =>
      match skipBlanks rest with
      | '}' :: rest => some (.object [], rest)
      | rest => (members? fuel rest).map fun x ↦ (.object x.1, x.2)
    | cs => number? cs

/-- The items of an array, up to its closing bracket. -/
def items? : (fuel : Nat) → List Char → Option (List Json × List Char)
  | 0, _ => none
  | fuel + 1, cs => do
    let (item, rest) ← value? fuel cs
    match skipBlanks rest with
    | ']' :: rest => return ([item], rest)
    | ',' :: rest =>
      let (more, rest) ← items? fuel rest
      return (item :: more, rest)
    | _ => none

/-- The members of an object, up to its closing brace. -/
def members? : (fuel : Nat) → List Char → Option (List (Option String × Json) × List Char)
  | 0, _ => none
  | fuel + 1, cs =>
    match skipBlanks cs with
    | '"' :: rest => do
      let (name, rest) ← string? rest
      match skipBlanks rest with
      | ':' :: rest =>
        let (member, rest) ← value? fuel rest
        match skipBlanks rest with
        | '}' :: rest => return ([(name, member)], rest)
        | ',' :: rest =>
          let (more, rest) ← members? fuel rest
          return ((name, member) :: more, rest)
        | _ => none
      | _ => none
    | _ => none

end

/-- The value that a text consists of, between blanks. -/
def parse? (text : String) : Option Json :=
  let cs := text.toList
  match value? (2 * cs.length + 2) cs with
  | some (v, rest) => if (skipBlanks rest).isEmpty then some v else none
  | none => none

/-! ## Records -/

/-- The one member with this name. -/
def member? (members : List (Option String × Json)) (name : String) : Option Json :=
  match members.filter (·.1 == some name) with
  | [m] => some m.2
  | _ => none

/-- The values of a record's fields, in the order of `names`. A record is an object that has each of
them once, or an array of just their values; other members of an object are not looked at. -/
def fields? (names : List String) : Json → Option (List Json)
  | .array items => if items.length = names.length then some items else none
  | .object members =>
    if members.all (·.1.isSome) then names.mapM (member? members) else none
  | _ => none

def bool? : Json → Option Bool
  | .bool b => some b
  | _ => none

/-- A whole number below `bound`. -/
def below? (bound : Nat) : Json → Option Nat
  | .natural n => if n < bound then some n else none
  | _ => none

def byte? (j : Json) : Option UInt8 := (j.below? 0x100).map .ofNat

def word? (j : Json) : Option UInt16 := (j.below? 0x10000).map .ofNat

/-- The compact text of an object, from its members' names and texts. Names are not escaped. -/
def objectText (members : List (String × String)) : String :=
  "\x7b" ++ ",".intercalate (members.map fun m ↦ "\"" ++ m.1 ++ "\":" ++ m.2) ++ "\x7d"

end Json

end RadioBoot
