import Hygrometer.Text.Basic

/-!
# JSON strings

Writing escapes the quote, the backslash and the controls below U+0020, and nothing else. Reading
accepts every escape of the format; a surrogate escape must be one of a pair.

There are two readers. One gives the characters of a string (`readString?`). The other only finds
its end (`skipString?`), for strings that nobody looks at, and is more lenient: an escape must be
well formed, but half of a pair of surrogates is passed. So a text may be refused or not depending
on whether the string is one of those that are looked at.
-/

namespace Hygrometer.Json

open Text (hexValue? natOfDigits?)

/-- Four small hexadecimal digits. -/
def fourHex (n : Nat) : List Char :=
  [n / 4096 % 16, n / 256 % 16, n / 16 % 16, n % 16].map Nat.digitChar

/-- A character inside a string. -/
def escapeChar (c : Char) : List Char :=
  if c = '"' then ['\\', '"']
  else if c = '\\' then ['\\', '\\']
  else if c = '\x08' then ['\\', 'b']
  else if c = '\x0c' then ['\\', 'f']
  else if c = '\n' then ['\\', 'n']
  else if c = '\r' then ['\\', 'r']
  else if c = '\t' then ['\\', 't']
  else if c.toNat < 32 then '\\' :: 'u' :: fourHex c.toNat
  else [c]

/-- A text as a JSON string. -/
def quote (s : String) : String :=
  .ofList ('"' :: s.toList.flatMap escapeChar ++ ['"'])

/-! ### Reading -/

/-- The character that a one-letter escape stands for. -/
def shortEscape? (c : Char) : Option Char :=
  if c = '"' ∨ c = '\\' ∨ c = '/' then some c
  else if c = 'b' then some '\x08'
  else if c = 'f' then some '\x0c'
  else if c = 'n' then some '\n'
  else if c = 'r' then some '\r'
  else if c = 't' then some '\t'
  else none

/-- The number that four hexadecimal digits denote. -/
def fourHex? (a b c d : Char) : Option Nat := natOfDigits? 16 [a, b, c, d]

/-- Whether a code is a surrogate, which is no character of its own. -/
def isSurrogate (code : Nat) : Bool := 0xD800 ≤ code && code ≤ 0xDFFF

/-- The character of a pair of surrogates, the high one first. -/
def surrogatePair? (high low : Nat) : Option Char :=
  if 0xD800 ≤ high ∧ high < 0xDC00 ∧ 0xDC00 ≤ low ∧ low ≤ 0xDFFF then
    some (.ofNat (0x10000 + (high - 0xD800) * 1024 + (low - 0xDC00)))
  else
    none

/-- Read a string from behind its opening quote: its characters and the text behind its closing
quote. Nothing, if it is not closed, holds a control character or a malformed escape. -/
def readString? : List Char → Option (List Char × List Char)
  | [] => none
  | '"' :: rest => some ([], rest)
  | '\\' :: 'u' :: a :: b :: c :: d :: rest =>
    match fourHex? a b c d with
    | none => none
    | some first =>
      if isSurrogate first then
        match rest with
        | '\\' :: 'u' :: a :: b :: c :: d :: rest =>
          match (fourHex? a b c d).bind (surrogatePair? first) with
          | none => none
          | some pair => (readString? rest).map fun (s, rest) ↦ (pair :: s, rest)
        | _ => none
      else
        (readString? rest).map fun (s, rest) ↦ (.ofNat first :: s, rest)
  | '\\' :: e :: rest =>
    match shortEscape? e with
    | none => none
    | some c => (readString? rest).map fun (s, rest) ↦ (c :: s, rest)
  | c :: rest =>
    if c.toNat < 32 ∨ c = '\\' then none
    else (readString? rest).map fun (s, rest) ↦ (c :: s, rest)

/-- Skip a string from behind its opening quote. Escapes must be well formed, but surrogates need
not pair up, as nobody looks at the characters. -/
def skipString? : List Char → Option (List Char)
  | [] => none
  | '"' :: rest => some rest
  | '\\' :: 'u' :: a :: b :: c :: d :: rest =>
    if (fourHex? a b c d).isSome then skipString? rest else none
  | '\\' :: e :: rest => if (shortEscape? e).isSome then skipString? rest else none
  | c :: rest => if c.toNat < 32 ∨ c = '\\' then none else skipString? rest

end Hygrometer.Json
