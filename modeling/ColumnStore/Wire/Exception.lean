import ColumnStore.Failure
import ColumnStore.Text.AnyDigit

/-!
# Errors of the Server in a Text

The server writes an error as a code, a mark and a message. Such a text stands
in the body of a refused request, and also in the middle of an accepted
response if the error came up later: there it takes the place of a line.

The code is the first number in the text that stands in the right place. If it
is too large for a code, or is written in digits of another script, the text is
no error of the server, even if another code follows.

## Main definitions

* `readException`: The code and the message in a text.
* `exceptionLine?`: The failure that a line stands for.
* `classify`: The failure that a refused request stands for.
-/

namespace ColumnStore

namespace Wire

open Text (Reader)

/-- The digits of a code at the start of a text, and what follows its mark. -/
def codeAt (s : List Char) : Option (List Char × List Char) := do
  let (_, r) ← Reader.exactly "Code: ".toList s
  let (digits, r) ← Reader.while1 Text.isAnyDigit r
  match r with
  | c :: ' ' :: r => if c = '.' || c = ',' then some (digits, r) else none
  | _ => none

/-- The digits of the first code in a text, and what follows its mark. -/
def firstCode? : List Char → Option (List Char × List Char)
  | [] => codeAt []
  | c :: s =>
    match codeAt (c :: s) with
    | some found => some found
    | none => firstCode? s

/-- The word between a code and its message. -/
def exceptionWord : List Char := "DB::Exception: ".toList

/-- The code that a text denotes, as a word of 32 binary digits. -/
def code? (s : List Char) : Option UInt32 :=
  (Number.naturalBelow? UInt32.size s).map UInt32.ofNat

/-- The code and the message of the error in a text. -/
def readException (s : List Char) : Option (UInt32 × List Char) := do
  let (digits, r) ← firstCode? s
  let code ← code? digits
  let message := match Reader.exactly exceptionWord r with
    | some (_, r) => r
    | none => r
  pure (code, Text.trim message)

/-- Whether a text occurs in another. -/
def occursIn (part : List Char) : List Char → Bool
  | [] => part.isEmpty
  | c :: s => part.isPrefixOf (c :: s) || occursIn part s

/-- The failure that a line stands for, if it is an error of the server. -/
def exceptionLine? (statement : String) (line : List Char) : Option Failure :=
  if "Code: ".toList.isPrefixOf line && occursIn "DB::Exception".toList line then
    (readException line).map fun (code, message) =>
      .server code (String.ofList message) statement
  else none

/-- The failure that a refused request stands for. A code beside the body comes
    before the one inside it. Without a code the server is not known to have
    read the statement. -/
def classify (status : UInt16) (headerCode : Option String) (body statement : String) : Failure :=
  let found := readException body.toList
  let trimmed := String.ofList (Text.trim body.toList)
  let beside := headerCode.bind fun c => code? (Text.trim c.toList)
  match beside, found with
  | some code, some (_, message) => .server code (String.ofList message) statement
  | some code, none => .server code trimmed statement
  | none, some (code, message) => .server code (String.ofList message) statement
  | none, none => .transport (.status status.toNat trimmed) (some statement)

end Wire

end ColumnStore
