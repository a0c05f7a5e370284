/-
# `AiosKernel.Lib.PyJson` — the JSON decoder of Python 3.11

`json.loads` on a `str`, as the C scanner of CPython reads it: where it looks,
where it reports an error and with which words.  The two hooks a caller can
pass, for the pairs of an object and for the tokens `NaN` and `Infinity`, are
parameters, and so is the number of nested objects and arrays that the
interpreter's recursion limit leaves room for.

A scanner takes the position and the text from there on, and returns what it
read with the position and the text after it.
-/
import AiosKernel.Lib.PyText

namespace Py

/-- A decoded JSON value.  A float is kept as the text it was written as. -/
inductive Json where
  | null
  | bool (b : Bool)
  | int (n : Int)
  | float (text : Str)
  | str (s : Str)
  | arr (elems : List Json)
  | obj (pairs : List (Str × Json))

/-- Why a text does not decode: a `JSONDecodeError` at a position, an error of a hook, or a
`RecursionError`. -/
inductive JsonError where
  | decode (msg : String) (pos : Nat)
  | hook (msg : Str)
  | recursion
  deriving DecidableEq, Repr

/-- The text of the error about the document `doc`: `JSONDecodeError` counts lines and columns
up to the position. -/
def JsonError.text (doc : Str) : JsonError → Str
  | .decode msg pos =>
    let before := doc.take pos
    let line := before.count 10 + 1
    let column := (before.reverse.takeWhile (· != 10)).length + 1
    lit msg ++ lit ": line " ++ dec line ++ lit " column " ++ dec column ++ lit " (char " ++
      dec pos ++ lit ")"
  | .hook msg => msg
  | .recursion => lit "maximum recursion depth exceeded while decoding a JSON object"

abbrev Scan (α : Type) : Type := Nat → Str → Except JsonError (α × Nat × Str)

structure Hooks where
  pairs : List (Str × Json) → Except JsonError Json
  constant : String → Except JsonError Json

/-! ## Whitespace and strings -/

def isJsonSpace (c : Nat) : Bool := c == 32 || c == 9 || c == 10 || c == 13

def skipSpace : Nat → Str → Nat × Str
  | pos, [] => (pos, [])
  | pos, c :: rest => if isJsonSpace c then skipSpace (pos + 1) rest else (pos, c :: rest)

/-- What a backslash and one character stand for. -/
def simpleEscape (c : Nat) : Option Nat :=
  if c = 34 ∨ c = 92 ∨ c = 47 then some c
  else if c = 98 then some 8
  else if c = 102 then some 12
  else if c = 110 then some 10
  else if c = 114 then some 13
  else if c = 116 then some 9
  else none

def hexValue (c : Nat) : Option Nat :=
  if isDigit c then some (c - 48)
  else if 97 ≤ c ∧ c ≤ 102 then some (c - 87)
  else if 65 ≤ c ∧ c ≤ 70 then some (c - 55)
  else none

/-- Four hexadecimal digits. -/
def hex4 (a b c d : Nat) : Option Nat := do
  let a ← hexValue a
  let b ← hexValue b
  let c ← hexValue c
  let d ← hexValue d
  return ((a * 16 + b) * 16 + c) * 16 + d

def isHighSurrogate (c : Nat) : Bool := 0xD800 ≤ c && c ≤ 0xDBFF

def isLowSurrogate (c : Nat) : Bool := 0xDC00 ≤ c && c ≤ 0xDFFF

def joinSurrogates (hi lo : Nat) : Nat := 0x10000 + (hi - 0xD800) * 1024 + (lo - 0xDC00)

/-- Put a character in front of a scanned string. -/
def consChar (c : Nat) : Except JsonError (Str × Nat × Str) → Except JsonError (Str × Nat × Str)
  | .ok (s, pos, rest) => .ok (c :: s, pos, rest)
  | .error e => .error e

/-- `scanstring` from behind the opening quote, which is at `start`.  A `\u` escape must leave
a character behind it, and two of them are joined only if a low surrogate follows a high one
and the text goes on after it. -/
def scanString (start : Nat) : Scan Str
  | _, [] => .error (.decode "Unterminated string starting at" start)
  | pos, c :: rest =>
    if c = 34 then .ok ([], pos + 1, rest)
    else if c = 92 then
      match rest with
      | [] => .error (.decode "Unterminated string starting at" start)
      | e :: rest =>
        if e = 117 then
          match rest with
          | h₁ :: h₂ :: h₃ :: h₄ :: next :: rest =>
            match hex4 h₁ h₂ h₃ h₄ with
            | none => .error (.decode "Invalid \\uXXXX escape" (pos + 1))
            | some u =>
              if isHighSurrogate u then
                match next, rest with
                | 92, 117 :: g₁ :: g₂ :: g₃ :: g₄ :: next' :: rest' =>
                  match hex4 g₁ g₂ g₃ g₄ with
                  | none => .error (.decode "Invalid \\uXXXX escape" (pos + 7))
                  | some v =>
                    if isLowSurrogate v then
                      consChar (joinSurrogates u v)
                        (scanString start (pos + 12) (next' :: rest'))
                    else consChar u (scanString start (pos + 6)
                      (92 :: 117 :: g₁ :: g₂ :: g₃ :: g₄ :: next' :: rest'))
                | next, rest => consChar u (scanString start (pos + 6) (next :: rest))
              else consChar u (scanString start (pos + 6) (next :: rest))
          | _ => .error (.decode "Invalid \\uXXXX escape" (pos + 1))
        else
          match simpleEscape e with
          | some c => consChar c (scanString start (pos + 2) rest)
          | none => .error (.decode "Invalid \\escape" pos)
    else if c ≤ 31 then .error (.decode "Invalid control character at" pos)
    else consChar c (scanString start (pos + 1) rest)
termination_by _ text => text.length

/-! ## Numbers -/

/-- A fraction part: a point and digits. -/
def fraction (s : Str) : Str × Str :=
  match s with
  | 46 :: d :: rest =>
    if isDigit d then
      let (ds, rest) := (d :: rest).span isDigit
      (46 :: ds, rest)
    else ([], s)
  | _ => ([], s)

def exponentSign (s : Str) : Str × Str :=
  match s with
  | 43 :: rest => ([43], rest)
  | 45 :: rest => ([45], rest)
  | _ => ([], s)

/-- An exponent part: `e`, perhaps a sign, and digits. -/
def exponent (s : Str) : Str × Str :=
  match s with
  | e :: rest =>
    if e = 101 ∨ e = 69 then
      let (sign, rest) := exponentSign rest
      let (ds, rest) := rest.span isDigit
      if ds.isEmpty then ([], s) else (e :: (sign ++ ds), rest)
    else ([], s)
  | [] => ([], s)

/-- The integer part: a zero, or digits that do not start with one. -/
def integerPart (s : Str) : Option (Str × Str) :=
  match s with
  | c :: rest =>
    if c = 48 then some ([48], rest)
    else if isDigit c then some ((c :: rest).span isDigit)
    else none
  | [] => none

/-- Whether a number starts with a minus, and what comes after it. -/
def numberSign (s : Str) : Bool × Str :=
  match s with
  | 45 :: rest => (true, rest)
  | _ => (false, s)

/-- `_match_number_unicode`; `none` is its `StopIteration`. -/
def matchNumber (pos : Nat) (s : Str) : Option (Json × Nat × Str) := do
  let (negative, unsigned) := numberSign s
  let (whole, rest) ← integerPart unsigned
  let (frac, rest) := fraction rest
  let (exp, rest) := exponent rest
  let sign : Str := if negative then [45] else []
  let text := sign ++ whole ++ frac ++ exp
  let value : Json :=
    if frac.isEmpty && exp.isEmpty then
      .int (if negative then -(decValue whole : Int) else decValue whole)
    else .float text
  return (value, pos + text.length, rest)

/-! ## Values -/

section Values

variable (hooks : Hooks) (value : Scan Json)

/-- The members of an object from the first key on.  Every round reads at least the quote of a
key, so that the length of the text is fuel enough. -/
def members : Nat → Scan (List (Str × Json))
  | 0, pos, _ => .error (.decode "Expecting property name enclosed in double quotes" pos)
  | fuel + 1, pos, 34 :: rest => do
    let (key, pos, rest) ← scanString pos (pos + 1) rest
    let (pos, rest) := skipSpace pos rest
    match rest with
    | 58 :: rest =>
      let (pos, rest) := skipSpace (pos + 1) rest
      let (v, pos, rest) ← value pos rest
      let (pos, rest) := skipSpace pos rest
      match rest with
      | 125 :: rest => .ok ([(key, v)], pos + 1, rest)
      | 44 :: rest =>
        let (pos, rest) := skipSpace (pos + 1) rest
        let (kvs, pos, rest) ← members fuel pos rest
        .ok ((key, v) :: kvs, pos, rest)
      | _ => .error (.decode "Expecting ',' delimiter" pos)
    | _ => .error (.decode "Expecting ':' delimiter" pos)
  | _ + 1, pos, _ => .error (.decode "Expecting property name enclosed in double quotes" pos)

def elements : Nat → Scan (List Json)
  | 0, pos, _ => .error (.decode "Expecting value" pos)
  | fuel + 1, pos, rest => do
    let (v, pos, rest) ← value pos rest
    let (pos, rest) := skipSpace pos rest
    match rest with
    | 93 :: rest => .ok ([v], pos + 1, rest)
    | 44 :: rest =>
      let (pos, rest) := skipSpace (pos + 1) rest
      let (vs, pos, rest) ← elements fuel pos rest
      .ok (v :: vs, pos, rest)
    | _ => .error (.decode "Expecting ',' delimiter" pos)

/-- `_parse_object_unicode` from behind the brace. -/
def parseObject : Scan Json := fun pos rest => do
  let (pos, rest) := skipSpace pos rest
  match rest with
  | 125 :: rest =>
    let v ← hooks.pairs []
    .ok (v, pos + 1, rest)
  | _ =>
    let (kvs, pos, rest) ← members value (rest.length + 1) pos rest
    let v ← hooks.pairs kvs
    .ok (v, pos, rest)

/-- `_parse_array_unicode` from behind the bracket. -/
def parseArray : Scan Json := fun pos rest => do
  let (pos, rest) := skipSpace pos rest
  match rest with
  | 93 :: rest => .ok (.arr [], pos + 1, rest)
  | _ =>
    let (vs, pos, rest) ← elements value (rest.length + 1) pos rest
    .ok (.arr vs, pos, rest)

/-- The scalars of `scan_once`: strings, the literals, the two hooked constants, numbers. -/
def scanScalar : Scan Json := fun pos s =>
  let constant (name : String) : Except JsonError (Json × Nat × Str) := do
    let v ← hooks.constant name
    .ok (v, pos + name.length, s.drop name.length)
  match s with
  | 34 :: rest => do
    let (text, pos, rest) ← scanString pos (pos + 1) rest
    .ok (.str text, pos, rest)
  | 110 :: 117 :: 108 :: 108 :: rest => .ok (.null, pos + 4, rest)
  | 116 :: 114 :: 117 :: 101 :: rest => .ok (.bool true, pos + 4, rest)
  | 102 :: 97 :: 108 :: 115 :: 101 :: rest => .ok (.bool false, pos + 5, rest)
  | _ =>
    if (lit "NaN").isPrefixOf s then constant "NaN"
    else if (lit "Infinity").isPrefixOf s then constant "Infinity"
    else if (lit "-Infinity").isPrefixOf s then constant "-Infinity"
    else
      match matchNumber pos s with
      | some r => .ok r
      | none => .error (.decode "Expecting value" pos)

end Values

/-- `scan_once` with room for `depth` more nested objects and arrays. -/
def scanOnce (hooks : Hooks) : Nat → Scan Json
  | 0, pos, s =>
    match s with
    | 123 :: _ => .error .recursion
    | 91 :: _ => .error .recursion
    | _ => scanScalar hooks pos s
  | depth + 1, pos, s =>
    match s with
    | 123 :: rest => parseObject hooks (scanOnce hooks depth) (pos + 1) rest
    | 91 :: rest => parseArray (scanOnce hooks depth) (pos + 1) rest
    | _ => scanScalar hooks pos s

/-- `json.loads`. -/
def loads (hooks : Hooks) (depth : Nat) (doc : Str) : Except JsonError Json :=
  if (doc.head? == some 0xFEFF) then
    .error (.decode "Unexpected UTF-8 BOM (decode using utf-8-sig)" 0)
  else do
    let (pos, rest) := skipSpace 0 doc
    let (v, pos, rest) ← scanOnce hooks depth pos rest
    let (pos, rest) := skipSpace pos rest
    if rest.isEmpty then .ok v else .error (.decode "Extra data" pos)

end Py
