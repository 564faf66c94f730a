import ColumnStore.Failure
import ColumnStore.Wire.LineBuffer

/-!
# Bodies of Responses

Where the lines of a response come from. A reader that waits has the whole
response before it. A reader that does not wait gets it in chunks, which end
anywhere, even inside a character: it keeps what it has of a line until the rest
arrives. A stream of chunks may break off instead of ending, and then what is
left of a line is not a line.

## Main definitions

* `Mode`: Whether a reader waits.
* `Body`: What is left of a response.
* `Body.refill`: A buffer that holds a whole line, as long as chunks arrive.
* `Body.nextLine`: The next line.
* `Body.text`: All that is left as one text.
-/

namespace ColumnStore

/-- How a response is read. -/
inductive Mode
  /-- The reader waits for the whole response. -/
  | blocking
  /-- The reader takes the response as it arrives. -/
  | streaming
  deriving DecidableEq

/-- What is left of a response. -/
inductive Body
  /-- All of the rest. -/
  | whole (rest : Bytes)
  /-- Bytes that arrived, the chunks that will arrive, and the failure that
      follows them if the stream breaks off. -/
  | arriving (buffer : Wire.LineBuffer) (chunks : List Bytes) (broken : Option Failure)

namespace Body

open Wire

/-- A stream of chunks after some bytes. -/
def stream (pending : Bytes) (chunks : List Bytes) (broken : Option Failure) : Body :=
  arriving { pending := pending } chunks broken

/-- A response that arrives in chunks. -/
def ofChunks (mode : Mode) (chunks : List Bytes) : Body :=
  match mode with
  | .blocking => whole chunks.flatten
  | .streaming => stream [] chunks none

/-- A bound on the number of lines that are left. -/
def size : Body → Nat
  | whole rest => rest.length
  | arriving buffer chunks _ => buffer.unread.length + chunks.flatten.length

/-- The text of a line, or the failure to have one. -/
def readLine (line : Bytes) : Except Failure (List Char) :=
  match lineText? line with
  | some text => .ok text
  | none => .error (.transport .notText none)

/-- The next whole line of a buffer that chunks are added to until it holds one,
    and what is left of buffer and chunks. -/
def refill (buffer : LineBuffer) (chunks : List Bytes) :
    Option Bytes × LineBuffer × List Bytes :=
  match buffer.pop? with
  | some (line, buffer) => (some line, buffer, chunks)
  | none =>
    match chunks with
    | [] => (none, buffer, [])
    | c :: cs => refill (buffer.extend c) cs

/-- What is left after the end. -/
def ended : Body := stream [] [] none

/-- The next line, if there is one, and what is left after it. -/
def nextLine : Body → Except Failure (Option (List Char)) × Body
  | whole [] => (.ok none, whole [])
  | whole rest =>
    let (line, rest) := cutLine rest
    ((readLine line).map some, whole rest)
  | arriving buffer chunks broken =>
    match refill buffer chunks with
    | (some line, buffer, chunks) => ((readLine line).map some, arriving buffer chunks broken)
    | (none, buffer, _) =>
      match broken with
      | some failure => (.error failure, ended)
      | none =>
        let (line, buffer) := buffer.finish
        let b := arriving buffer [] none
        if line = [] then (.ok none, b) else ((readLine line).map some, b)

/-- All lines that are left, `n` at most. -/
def remainingLines : Nat → Body → Except Failure (List (List Char))
  | 0, _ => .ok []
  | n + 1, b =>
    match b.nextLine with
    | (.error e, _) => .error e
    | (.ok none, _) => .ok []
    | (.ok (some line), b) => (remainingLines n b).map (line :: ·)

/-- Lines with a newline between neighbours, and one at the end unless there is
    no text. -/
def joinLines (lines : List (List Char)) : List Char :=
  let joined := ['\n'].intercalate lines
  if joined = [] then [] else joined ++ ['\n']

/-- All that is left as one text. A reader that waits takes it as it is, another
    one puts it together from its lines. -/
def text : Body → Except Failure (List Char)
  | whole rest =>
    match text? rest with
    | some text => .ok text
    | none => .error (.transport .unreadableBody none)
  | arriving buffer chunks broken =>
    let b := arriving buffer chunks broken
    (b.remainingLines (b.size + 1)).map joinLines

end Body

end ColumnStore
