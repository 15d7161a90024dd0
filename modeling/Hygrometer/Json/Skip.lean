import Hygrometer.Json.Number
import Hygrometer.Json.Text

/-!
# Skipping JSON values

A record's unknown members hold values of any shape, which are passed over without being kept. The
brackets open around the place that is reached are a stack, so nesting has no limit.

What is skipped must be well-formed: brackets have to match, members need keys and colons, and
commas have to stand between elements and nowhere else. Numbers and strings are only looked at as
far as it takes to find their ends. So a number that is out of range is passed, where reading it
would be refused.
-/

namespace Hygrometer.Json

/-- Drop the blanks that may stand between tokens. -/
def skipBlanks (cs : List Char) : List Char :=
  cs.dropWhile fun c ↦ c = ' ' || c = '\n' || c = '\t' || c = '\r'

/-- The text behind a word, if it starts with it. -/
def afterWord? : List Char → List Char → Option (List Char)
  | [], cs => some cs
  | w :: ws, c :: cs => if w = c then afterWord? ws cs else none
  | _ :: _, [] => none

/-- An open bracket. -/
inductive Bracket where
  /-- The bracket of a sequence. -/
  | square
  /-- The brace of a map. -/
  | curly
deriving DecidableEq

/-- What the text goes on with. -/
inductive Awaited where
  /-- A value. -/
  | value
  /-- The first value or member inside a bracket, or its end. -/
  | first
  /-- Whatever follows a whole value. -/
  | more
deriving DecidableEq

/-- Skip the key of a member and its colon. -/
def skipKey? (cs : List Char) : Option (List Char) :=
  match skipBlanks cs with
  | '"' :: cs =>
    match (skipString? cs).map skipBlanks with
    | some (':' :: cs) => some cs
    | _ => none
  | _ => none

/-- Skip a value that opens no bracket. -/
def skipPlain? : List Char → Option (List Char)
  | '"' :: cs => skipString? cs
  | 'n' :: cs => afterWord? ['u', 'l', 'l'] cs
  | 't' :: cs => afterWord? ['r', 'u', 'e'] cs
  | 'f' :: cs => afterWord? ['a', 'l', 's', 'e'] cs
  | cs => (takeNumeral? cs).map (·.2)

/-- Skip what is awaited inside the open brackets, until the outermost of them is closed. -/
def skipAwaited? : Nat → Awaited → List Bracket → List Char → Option (List Char)
  | 0, _, _, _ => none
  | fuel + 1, .value, stack, cs =>
    match skipBlanks cs with
    | '[' :: cs => skipAwaited? fuel .first (.square :: stack) cs
    | '\x7b' :: cs => skipAwaited? fuel .first (.curly :: stack) cs
    | cs => (skipPlain? cs).bind (skipAwaited? fuel .more stack)
  | _ + 1, .first, [], _ => none
  | fuel + 1, .first, .square :: stack, cs =>
    match skipBlanks cs with
    | ']' :: cs => skipAwaited? fuel .more stack cs
    | cs => skipAwaited? fuel .value (.square :: stack) cs
  | fuel + 1, .first, .curly :: stack, cs =>
    match skipBlanks cs with
    | '\x7d' :: cs => skipAwaited? fuel .more stack cs
    | cs => (skipKey? cs).bind (skipAwaited? fuel .value (.curly :: stack))
  | _ + 1, .more, [], cs => some cs
  | fuel + 1, .more, .square :: stack, cs =>
    match skipBlanks cs with
    | ']' :: cs => skipAwaited? fuel .more stack cs
    | ',' :: cs => skipAwaited? fuel .value (.square :: stack) cs
    | _ => none
  | fuel + 1, .more, .curly :: stack, cs =>
    match skipBlanks cs with
    | '\x7d' :: cs => skipAwaited? fuel .more stack cs
    | ',' :: cs => (skipKey? cs).bind (skipAwaited? fuel .value (.curly :: stack))
    | _ => none

/-- Skip one value, and the blanks before it. Every two steps pass a character at least. -/
def skipValue? (cs : List Char) : Option (List Char) :=
  skipAwaited? (2 * cs.length + 2) .value [] cs

end Hygrometer.Json
