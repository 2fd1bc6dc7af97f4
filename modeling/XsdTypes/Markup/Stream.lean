import XsdTypes.Chars.Split
import XsdTypes.Markup.Attribute
import XsdTypes.Source.Location

/-!
# Event streams

A markup text is read into a stream of events: a tag opens, the innermost tag closes, text stands
between tags. A tag that closes itself gives two events at one position. Comments, processing
instructions and document types give none. The stream ends with the text, or where something is
wrong with it; the events before that place are kept.
-/

namespace XsdTypes.Markup

/-- What is met in a markup text. -/
inductive Event where
  /-- A tag opens. -/
  | opened (name : String) (attributes : List (String × String))
  /-- The innermost open tag closes. -/
  | closed
  /-- Text stands between tags. -/
  | text (content : String)
  deriving DecidableEq, Repr

/-- How a stream ends: at the end of the text, or at a fault. -/
inductive Ending (α : Type) where
  /-- All of the text was read. -/
  | complete (stop : α)
  /-- The text is refused. -/
  | broken (place : α) (fault : Fault)
  deriving Repr

/-- Events, each with its place, and how they end. -/
structure Stream (α : Type) where
  /-- The events in order. -/
  items : List (α × Event)
  /-- What comes after the last one. -/
  ending : Ending α
  deriving Repr

namespace Stream

variable {α β : Type}

/-- No event before a fault. -/
def broken (place : α) (fault : Fault) : Stream α := ⟨[], .broken place fault⟩

/-- The stream with more events before its own. -/
def after (items : List (α × Event)) (s : Stream α) : Stream α :=
  { s with items := items ++ s.items }

/-- The stream with its places changed. -/
def map (f : α → β) (s : Stream α) : Stream β where
  items := s.items.map fun (place, event) => (f place, event)
  ending :=
    match s.ending with
    | .complete stop => .complete (f stop)
    | .broken place fault => .broken (f place) fault

end Stream

/-! ## Where a construct ends

Each function takes the characters after the opening bracket and gives those before the closing
bracket and those after it. `seen` holds the characters already passed, latest first. -/

/-- The end of a comment: a bracket after two dashes, the comment having an opening and a closing
mark that do not overlap. -/
def commentEnd (seen : List Char) : List Char → Option (List Char × List Char)
  | [] => none
  | c :: cs =>
    match c, seen with
    | '>', '-' :: '-' :: _ :: _ :: _ :: _ => some (seen.reverse, cs)
    | _, _ => commentEnd (c :: seen) cs

/-- The end of a character data section: a bracket after two square brackets. -/
def cdataEnd (seen : List Char) : List Char → Option (List Char × List Char)
  | [] => none
  | c :: cs =>
    match c, seen with
    | '>', ']' :: ']' :: _ => some (seen.reverse, cs)
    | _, _ => cdataEnd (c :: seen) cs

/-- The end of a processing instruction: a bracket after a question mark. -/
def instructionEnd (seen : List Char) : List Char → Option (List Char × List Char)
  | [] => none
  | c :: cs =>
    match c, seen with
    | '>', '?' :: _ => some (seen.reverse, cs)
    | _, _ => instructionEnd (c :: seen) cs

/-- The end of a document type declaration: the bracket that closes no inner one of the `depth`
that are open. -/
def doctypeEnd (seen : List Char) (depth : Nat) : List Char → Option (List Char × List Char)
  | [] => none
  | c :: cs =>
    if c = '<' then doctypeEnd (c :: seen) (depth + 1) cs
    else if c = '>' then
      match depth with
      | 0 => some (seen.reverse, cs)
      | depth + 1 => doctypeEnd (c :: seen) depth cs
    else doctypeEnd (c :: seen) depth cs

/-- The end of a tag: the first bracket outside quotes. `quote` is the quote that is open. -/
def tagEnd (seen : List Char) (quote : Option Char) : List Char → Option (List Char × List Char)
  | [] => none
  | c :: cs =>
    match quote with
    | some q => tagEnd (c :: seen) (if c = q then none else some q) cs
    | none =>
      if c = '>' then some (seen.reverse, cs)
      else tagEnd (c :: seen) (if c = '"' ∨ c = '\'' then some c else none) cs

/-! ## One construct -/

/-- What a construct between brackets amounts to. -/
inductive Piece where
  /-- Nothing that a reader is told of. -/
  | silent
  /-- Character data. -/
  | data (content : List Char)
  /-- A tag, which closes itself or stays open. -/
  | openTag (content : List Char) (selfClosing : Bool)
  /-- An end tag with its name. -/
  | endTag (name : List Char)

/-- The name in an end tag: trailing white space is dropped, unless there is nothing else. -/
def endTagName (content : List Char) : List Char :=
  if content.all isSpace then content else (content.reverse.dropWhile isSpace).reverse

/-- Reads a construct that starts with an exclamation mark. A fault comes with the number of bytes
from the opening bracket to it. -/
def bangPiece (cs : List Char) : Except (Nat × Fault) (Piece × List Char × List Char) :=
  match cs with
  | '!' :: '[' :: _ =>
    match cdataEnd [] cs with
    | some (content, rest) =>
      match Chars.strip ['!', '[', 'C', 'D', 'A', 'T', 'A', '['] content with
      | some data => .ok (.data (data.take (data.length - 2)), content, rest)
      | none => .error (0, .unclosed .cdata)
    | none => .error (0, .unclosed .cdata)
  | '!' :: '-' :: _ =>
    match commentEnd [] cs with
    | some (content, rest) =>
      if ['!', '-', '-'].isPrefixOf content then .ok (.silent, content, rest)
      else .error (0, .unclosed .comment)
    | none => .error (0, .unclosed .comment)
  | '!' :: d :: _ =>
    if d = 'D' ∨ d = 'd' then
      match doctypeEnd [] 0 cs with
      | some (content, rest) =>
        if (content.take 8).map Char.toUpper = ['!', 'D', 'O', 'C', 'T', 'Y', 'P', 'E'] then
          if (content.drop 8).all isSpace then
            .error (Chars.byteLength content + 1, .namelessDoctype)
          else .ok (.silent, content, rest)
        else .error (0, .unclosed .doctype)
      | none => .error (0, .unclosed .doctype)
    else .error (0, .unknownConstruct)
  | _ => .error (0, .unknownConstruct)

/-- Reads the construct after an opening bracket: what it is, its characters up to the closing
bracket, and the characters after that. -/
def piece (cs : List Char) : Except (Nat × Fault) (Piece × List Char × List Char) :=
  match cs with
  | '!' :: _ => bangPiece cs
  | '?' :: _ =>
    match instructionEnd [] cs with
    | some (content, rest) =>
      if 1 < content.length then .ok (.silent, content, rest)
      else .error (0, .unclosed .instruction)
    | none => .error (0, .unclosed .instruction)
  | _ =>
    match tagEnd [] none cs with
    | none => .error (0, .unclosed .tag)
    | some (content, rest) =>
      match content with
      | '/' :: name => .ok (.endTag (endTagName name), content, rest)
      | _ =>
        match Chars.stripEnd ['/'] content with
        | some inner => .ok (.openTag inner true, content, rest)
        | none => .ok (.openTag content false, content, rest)

/-- The events of a construct, and the names of the open tags after it, innermost first. -/
def Piece.events (enclosing : List String) : Piece → Except Fault (List Event × List String)
  | .silent => .ok ([], enclosing)
  | .data content => .ok ([.text (String.ofList content)], enclosing)
  | .openTag content selfClosing => do
    let (name, attributes) ← tagParts content
    if selfClosing then return ([.opened name attributes, .closed], enclosing)
    return ([.opened name attributes], name :: enclosing)
  | .endTag name =>
    let name := String.ofList name
    match enclosing with
    | [] => .error (.strayEnd name)
    | expected :: enclosing =>
      if name = expected then .ok ([.closed], enclosing)
      else .error (.mismatchedEnd expected name)

/-! ## All of a text -/

/-- Reads at most `fuel` texts and constructs on from byte `reached`. -/
def streamFrom : Nat → List String → Nat → List Char → Stream Nat
  | 0, _, reached, _ => ⟨[], .complete reached⟩
  | _, _, reached, [] => ⟨[], .complete reached⟩
  | fuel + 1, enclosing, reached, c :: cs =>
    if c = '<' then
      match piece cs with
      | .error (ahead, fault) => .broken (reached + ahead) fault
      | .ok (p, content, rest) =>
        match p.events enclosing with
        | .error fault => .broken reached fault
        | .ok (events, enclosing) =>
          (streamFrom fuel enclosing (reached + Chars.byteLength content + 2) rest).after
            (events.map fun event => (reached, event))
    else
      let run := (c :: cs).takeWhile (· != '<')
      match unescape run with
      | .error fault => .broken reached (.reference fault)
      | .ok content =>
        (streamFrom fuel enclosing (reached + Chars.byteLength run)
          ((c :: cs).dropWhile (· != '<'))).after [(reached, .text (String.ofList content))]

/-- The events of a text with their byte offsets. A byte order mark at the very start is passed
over and not counted. -/
def offsetStream (text : List Char) : Stream Nat :=
  let body :=
    match text with
    | '\uFEFF' :: body => body
    | body => body
  streamFrom (body.length + 1) [] 0 body

/-- The events of a text with their positions. If the stream is complete, its stop is the end of
the text. -/
def stream (text : List Char) : Stream Position :=
  let s := (offsetStream text).map (Position.ofOffset text)
  match s.ending with
  | .complete _ => { s with ending := .complete (Position.ofOffset text (Chars.byteLength text)) }
  | .broken .. => s

end XsdTypes.Markup
