import WireShapes.Xml.Attribute

/-!
# Tokens of a document

`Stream.ofChars` reads a document character by character into start tags, end tags, texts, CDATA
sections and asides (comments, processing instructions, declarations, doctypes).  An empty element
gives a start and an end.  End tags must name the element that is open.  The first fault ends the
stream; so does the end of the input, wherever it falls, except inside a tag or an aside.
-/

namespace WireShapes.Xml

/-- One piece of a document. -/
inductive Token
  | start (tag : RawTag)
  | close (name : List Char)
  | text (raw : List Char)
  | cdata (raw : List Char)
  | aside
deriving DecidableEq

/-- The pieces of a document, and the fault that ends them if one does. -/
structure Stream where
  tokens : List Token
  fault : Option ScanFault
deriving DecidableEq

namespace Stream

/-- Nothing more, without a fault. -/
def done : Stream := ⟨[], none⟩

/-- Nothing more because of a fault. -/
def broken (fault : ScanFault) : Stream := ⟨[], some fault⟩

/-- Tokens in front of those that follow them. -/
def prepend (first : List Token) (rest : Stream) : Stream :=
  { rest with tokens := first ++ rest.tokens }

end Stream

/-- What the reader is in the middle of.  Characters seen are kept last first; those of a bang or an
instruction start with its `!` or `?`. -/
inductive Stage
  | text (seen : List Char)
  /-- Right after a `<`. -/
  | opened
  /-- In a start tag, inside quotes if there is a quote. -/
  | tag (quote : Option Char) (seen : List Char)
  | closing (seen : List Char)
  | instruction (seen : List Char)
  /-- Right after `<!`. -/
  | bang
  | comment (seen : List Char)
  | cdata (seen : List Char)
  /-- In a doctype, with the number of its `<` less that of its `>`. -/
  | doctype (balance : Int) (seen : List Char)
deriving DecidableEq

/-- The reader between two characters: what it is in, and the names of the open elements, innermost
first. -/
structure Scanner where
  stage : Stage
  openNames : List (List Char)
deriving DecidableEq

/-- What reading one character, or the end of the input, comes to. -/
inductive Step
  | go (tokens : List Token) (next : Scanner)
  | stop (tokens : List Token) (fault : Option ScanFault)
deriving DecidableEq

namespace Scanner

/-- Back in text after a piece of markup. -/
def resume (openNames : List (List Char)) : Scanner := ⟨.text [], openNames⟩

/-- A finished start tag; a final slash makes the element empty. -/
def finishTag (openNames : List (List Char)) (seen : List Char) : Step :=
  match seen with
  | '/' :: inner =>
    let tag := RawTag.ofContent inner.reverse
    .go [.start tag, .close tag.name] (resume openNames)
  | _ =>
    let tag := RawTag.ofContent seen.reverse
    .go [.start tag] (resume (tag.name :: openNames))

/-- The name of an end tag without the blanks after it, unless it is all blanks. -/
def closingName (content : List Char) : List Char :=
  let trimmed := (content.reverse.dropWhile Text.isMarkupBlank).reverse
  if trimmed.isEmpty then content else trimmed

/-- A finished end tag. -/
def finishClosing (openNames : List (List Char)) (seen : List Char) : Step :=
  let content := seen.reverse
  match openNames with
  | [] => .stop [] (some (.mismatch "" (String.ofList content)))
  | expected :: outer =>
    let name := closingName content
    if name = expected then .go [.close name] (resume outer)
    else .stop [] (some (.mismatch (String.ofList expected) (String.ofList name)))

/-- A finished processing instruction or declaration: it ends in a question mark of its own. -/
def finishInstruction (openNames : List (List Char)) (seen : List Char) : Step :=
  match seen with
  | '?' :: _ :: _ :: _ => .go [.aside] (resume openNames)
  | _ => .stop [] (some (.unfinished .instruction))

/-- A finished comment: it opens with two hyphens. -/
def finishComment (openNames : List (List Char)) (seen : List Char) : Step :=
  if ['!', '-', '-'].isPrefixOf seen.reverse then .go [.aside] (resume openNames)
  else .stop [] (some (.unfinished .comment))

/-- A finished CDATA section, whose keyword may be in any case. -/
def finishCdata (openNames : List (List Char)) (seen : List Char) : Step :=
  let content := seen.reverse
  if (content.take 8).map Char.toUpper = "![CDATA[".toList then
    .go [.cdata ((content.drop 8).dropLast.dropLast)] (resume openNames)
  else .stop [] (some (.unfinished .cdata))

/-- A finished doctype, whose keyword may be in any case. -/
def finishDoctype (openNames : List (List Char)) (seen : List Char) : Step :=
  let content := seen.reverse
  if (content.take 8).map Char.toUpper = "!DOCTYPE".toList then
    if (content.drop 8).all Text.isMarkupBlank then .stop [] (some .emptyDoctype)
    else .go [.aside] (resume openNames)
  else .stop [] (some (.unfinished .doctype))

/-- The texts of an input are never empty. -/
def textTokens (seen : List Char) : List Token :=
  if seen.isEmpty then [] else [.text seen.reverse]

/-- A character of a start tag. -/
def tagStep (openNames : List (List Char)) (quote : Option Char) (seen : List Char) (c : Char) :
    Step :=
  match quote with
  | some q => .go [] ⟨.tag (if c = q then none else some q) (c :: seen), openNames⟩
  | none =>
    if c = '>' then finishTag openNames seen
    else if c = '"' ∨ c = '\'' then .go [] ⟨.tag (some c) (c :: seen), openNames⟩
    else .go [] ⟨.tag none (c :: seen), openNames⟩

/-- The first byte of a character. -/
def firstByte (c : Char) : UInt8 :=
  (c.toString.toUTF8.toList).headD 0

/-- The character after `<!`, which tells what kind of bang it is. -/
def bangStep (openNames : List (List Char)) (c : Char) : Step :=
  if c = '[' then .go [] ⟨.cdata [c, '!'], openNames⟩
  else if c = '-' then .go [] ⟨.comment [c, '!'], openNames⟩
  else if c = 'D' ∨ c = 'd' then .go [] ⟨.doctype 0 [c, '!'], openNames⟩
  else .stop [] (some (.unknownBang (firstByte c)))

/-- A comment can end after two hyphens, once its opening hyphens are complete. -/
def endsComment : List Char → Bool
  | '-' :: '-' :: _ :: _ :: _ :: _ => true
  | _ => false

/-- A CDATA section can end after two closing brackets. -/
def endsCdata : List Char → Bool
  | ']' :: ']' :: _ => true
  | _ => false

/-- Reads one character. -/
def step (s : Scanner) (c : Char) : Step :=
  match s.stage with
  | .text seen =>
    if c = '<' then .go (textTokens seen) ⟨.opened, s.openNames⟩
    else .go [] ⟨.text (c :: seen), s.openNames⟩
  | .opened =>
    if c = '/' then .go [] ⟨.closing [], s.openNames⟩
    else if c = '?' then .go [] ⟨.instruction ['?'], s.openNames⟩
    else if c = '!' then .go [] ⟨.bang, s.openNames⟩
    else tagStep s.openNames none [] c
  | .tag quote seen => tagStep s.openNames quote seen c
  | .closing seen =>
    if c = '>' then finishClosing s.openNames seen
    else .go [] ⟨.closing (c :: seen), s.openNames⟩
  | .instruction seen =>
    if c = '>' then finishInstruction s.openNames seen
    else .go [] ⟨.instruction (c :: seen), s.openNames⟩
  | .bang => bangStep s.openNames c
  | .comment seen =>
    if c = '>' ∧ endsComment seen then finishComment s.openNames seen
    else .go [] ⟨.comment (c :: seen), s.openNames⟩
  | .cdata seen =>
    if c = '>' ∧ endsCdata seen then finishCdata s.openNames seen
    else .go [] ⟨.cdata (c :: seen), s.openNames⟩
  | .doctype balance seen =>
    if c = '>' then
      if balance = 0 then finishDoctype s.openNames seen
      else .go [] ⟨.doctype (balance - 1) (c :: seen), s.openNames⟩
    else if c = '<' then .go [] ⟨.doctype (balance + 1) (c :: seen), s.openNames⟩
    else .go [] ⟨.doctype balance (c :: seen), s.openNames⟩

/-- What a step without further input leaves of the stream. -/
def closed : Step → Stream
  | .go tokens _ => ⟨tokens, none⟩
  | .stop tokens fault => ⟨tokens, fault⟩

/-- Reads the end of the input.  An end tag and an instruction need no `>` there. -/
def finish (s : Scanner) : Stream :=
  match s.stage with
  | .text seen => ⟨textTokens seen, none⟩
  | .opened => .done
  | .tag _ _ => .broken (.unfinished .element)
  | .closing seen => closed (finishClosing s.openNames seen)
  | .instruction seen => closed (finishInstruction s.openNames seen)
  | .bang => .broken (.unfinished .bang)
  | .comment _ => .broken (.unfinished .comment)
  | .cdata _ => .broken (.unfinished .cdata)
  | .doctype _ _ => .broken (.unfinished .doctype)

/-- Reads the rest of an input. -/
def run (s : Scanner) : List Char → Stream
  | [] => s.finish
  | c :: rest =>
    match s.step c with
    | .go [] next => next.run rest
    | .go (token :: tokens) next => (next.run rest).prepend (token :: tokens)
    | .stop tokens fault => ⟨tokens, fault⟩

end Scanner

/-- Drops a byte order mark at the very start. -/
def dropByteOrderMark : List Char → List Char
  | c :: rest => if c.toNat = 0xfeff then rest else c :: rest
  | [] => []

/-- The tokens of a document. -/
def Stream.ofChars (cs : List Char) : Stream :=
  (Scanner.resume []).run (dropByteOrderMark cs)

/-- A token with the blanks around its text gone; a text of blanks only goes altogether. -/
def Token.trimmed? : Token → Option Token
  | .text raw =>
    let trimmed := Text.trimBy Text.isMarkupBlank raw
    if trimmed.isEmpty then none else some (.text trimmed)
  | token => some token

/-- The stream with its texts trimmed. -/
def Stream.trimmed (s : Stream) : Stream :=
  { s with tokens := s.tokens.filterMap Token.trimmed? }

end WireShapes.Xml
