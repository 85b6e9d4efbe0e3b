import DevfilePush.Yaml.Token.Block
import DevfilePush.Yaml.Token.Plain
import DevfilePush.Yaml.Token.Property
import DevfilePush.Yaml.Token.Quoted

/-!
# Cutting a stream into tokens

Collections in block style begin and end by indentation alone, so the scanner keeps the columns of the
blocks that are open and writes tokens where they begin and end. What stands before a colon becomes a
key only when the colon is met, so the scanner keeps, for each flow collection that is open, the place
of the last token that may turn out to begin a key.

## Main definitions

* `Yaml.Scanner`: what is known of a stream up to a place.
* `Yaml.Token.ofChars`: the tokens of a stream.
-/

namespace DevfilePush.Yaml

/-- A token that may turn out to begin a key. -/
structure KeyCandidate where
  /-- Whether it has to, since it stands where the surrounding mapping needs a key. -/
  required : Bool
  /-- How many tokens come before it. -/
  position : Nat
  mark : Mark

/-- What is known of a stream up to a place. -/
structure Scanner where
  rest : List Char
  mark : Mark
  /-- The tokens found so far, in reverse. -/
  tokens : List Token
  /-- How many they are. -/
  count : Nat
  /-- One more than the column of the innermost block that is open; zero if there is none. -/
  margin : Nat
  /-- The same of the blocks around it. -/
  margins : List Nat
  /-- The candidate for a key in the innermost collection. -/
  candidate : Option KeyCandidate
  /-- The same in the collections around the open flow collections. -/
  candidates : List (Option KeyCandidate)
  /-- Whether a key may begin here. -/
  keyAllowed : Bool

namespace Scanner

/-- The beginning of a stream. -/
def start (cs : List Char) : Scanner := ⟨cs, .start, [], 0, 0, [], none, [], true⟩

/-- Whether a flow collection is open. -/
def inFlow (s : Scanner) : Bool := !s.candidates.isEmpty

/-- Refuses the stream at this place. -/
def refuse {α : Type} (s : Scanner) (reason : String) : Except Fault α := .error ⟨reason, s.mark⟩

/-- Adds a token. -/
def emit (s : Scanner) (token : Token) : Scanner :=
  { s with tokens := token :: s.tokens, count := s.count + 1 }

/-- Adds a token after the first `position` ones. -/
def emitAt (s : Scanner) (position : Nat) (token : Token) : Scanner :=
  let later := s.count - position
  { s with
    tokens := s.tokens.take later ++ token :: s.tokens.drop later
    count := s.count + 1 }

/-- Goes on after `n` characters of the line. -/
def skip (s : Scanner) (n : Nat) : Scanner :=
  { s with rest := s.rest.drop n, mark := s.mark.advance n }

/-! ## Keys -/

/-- A candidate that is still one at a place: on the same line and at most 1024 octets away. -/
def freshCandidate (mark : Mark) (candidate : Option KeyCandidate) :
    Except Fault (Option KeyCandidate) :=
  match candidate with
  | none => .ok none
  | some k =>
    if k.mark.line < mark.line || k.mark.octets + 1024 < mark.octets then
      if k.required then .error ⟨"a colon is expected after a key", mark⟩ else .ok none
    else .ok (some k)

/-- Gives up the innermost candidate if it is out of reach. The ones around it are looked at when
their collection is the innermost again. -/
def dropStale (s : Scanner) : Except Fault Scanner := do
  let candidate ← freshCandidate s.mark s.candidate
  return { s with candidate }

/-- Gives up the innermost candidate. -/
def dropCandidate (s : Scanner) : Except Fault Scanner :=
  if s.candidate.any (·.required) then s.refuse "a colon is expected after a key"
  else .ok { s with candidate := none }

/-- Takes the next token for a candidate, if a key may begin here. -/
def saveCandidate (s : Scanner) : Except Fault Scanner :=
  if s.keyAllowed then do
    let s ← s.dropCandidate
    let required := !s.inFlow && s.margin = s.mark.column + 1
    return { s with candidate := some ⟨required, s.count, s.mark⟩ }
  else .ok s

/-! ## Blocks -/

/-- Closes the blocks in `margins` that are further in than `limit`. -/
def unrollTo (limit : Nat) (s : Scanner) : List Nat → Scanner
  | [] => s
  | outer :: margins =>
    if limit < s.margin then
      unrollTo limit { s.emit .blockEnd with margin := outer, margins } margins
    else s

/-- Closes the blocks that do not reach to a margin. In flow collections indentation means nothing. -/
def unroll (s : Scanner) (limit : Nat) : Scanner :=
  if s.inFlow then s else unrollTo limit s s.margins

/-- Opens a block at a column, unless one is open there. -/
def roll (s : Scanner) (column : Nat) (position : Option Nat) (token : Token) : Scanner :=
  if s.inFlow || column < s.margin then s
  else
    let s := match position with
      | some position => s.emitAt position token
      | none => s.emit token
    { s with margin := column + 1, margins := s.margin :: s.margins }

/-! ## Between tokens -/

/-- Skips blanks, comments and line breaks. A tab is skipped only where no key may begin, and a byte
order mark at the beginning of a line. -/
def skipGap (flow : Bool) (keyAllowed comment : Bool) (mark : Mark) :
    List Char → List Char × Mark × Bool
  | [] => ([], mark, keyAllowed)
  | c :: rest =>
    if isBreak c then skipGap flow (keyAllowed || !flow) false mark.nextLine rest
    else if comment || c = ' ' || (c = '\ufeff' && mark.column = 0) ||
        (c = '\t' && (flow || !keyAllowed)) then
      skipGap flow keyAllowed comment (mark.after c) rest
    else if c = '#' then skipGap flow keyAllowed true (mark.after c) rest
    else (c :: rest, mark, keyAllowed)

/-- Goes on to the next token. -/
def nextToken (s : Scanner) : Except Fault Scanner := do
  let (rest, mark, keyAllowed) := skipGap s.inFlow s.keyAllowed false s.mark s.rest
  let s ← { s with rest, mark, keyAllowed : Scanner }.dropStale
  return s.unroll (s.mark.column + 1)

/-! ## Tokens -/

/-- Closes everything at the end of the stream. -/
def finish (s : Scanner) : Except Fault Scanner := do
  let s ← (s.unroll 0).dropCandidate
  return { s with keyAllowed := false }

/-- Takes a directive. -/
def takeDirective (s : Scanner) : Except Fault Scanner := do
  let s ← (s.unroll 0).dropCandidate
  let part ← readDirective (s.mark.advance 1) (s.rest.drop 1)
  let (rest, mark) ← skipLineEnd part.mark part.rest
  return { s.emit part.value with rest, mark, keyAllowed := false }

/-- Takes a document mark. -/
def takeDocumentMark (s : Scanner) (token : Token) : Except Fault Scanner := do
  let s ← (s.unroll 0).dropCandidate
  return { (s.emit token).skip 3 with keyAllowed := false }

/-- Takes the opening bracket of a flow collection. -/
def openFlow (s : Scanner) (token : Token) : Except Fault Scanner := do
  let s ← s.saveCandidate
  return { (s.emit token).skip 1 with
    candidate := none
    candidates := s.candidate :: s.candidates
    keyAllowed := true }

/-- Takes a closing bracket. -/
def closeFlow (s : Scanner) (token : Token) : Except Fault Scanner := do
  let s ← s.dropCandidate
  let s := match s.candidates with
    | outer :: candidates => { s with candidate := outer, candidates }
    | [] => s
  return { (s.emit token).skip 1 with keyAllowed := false }

/-- Takes a comma in a flow collection. -/
def takeFlowEntry (s : Scanner) : Except Fault Scanner := do
  let s ← s.dropCandidate
  return { (s.emit .flowEntry).skip 1 with keyAllowed := true }

/-- Takes the dash of an entry of a block sequence. -/
def takeBlockEntry (s : Scanner) : Except Fault Scanner := do
  if !s.inFlow && !s.keyAllowed then s.refuse "an entry of a sequence is not allowed here"
  else
    let s ← (s.roll s.mark.column none .blockSequenceStart).dropCandidate
    return { (s.emit .blockEntry).skip 1 with keyAllowed := true }

/-- Takes a question mark that begins a key. -/
def takeKey (s : Scanner) : Except Fault Scanner := do
  if !s.inFlow && !s.keyAllowed then s.refuse "a key is not allowed here"
  else
    let s ← (s.roll s.mark.column none .blockMappingStart).dropCandidate
    return { (s.emit .key).skip 1 with keyAllowed := !s.inFlow }

/-- Takes a colon that begins a value. What the candidate began was a key then. -/
def takeValue (s : Scanner) : Except Fault Scanner :=
  match s.candidate with
  | some k =>
    let s := (s.emitAt k.position .key).roll k.mark.column (some k.position) .blockMappingStart
    .ok { (s.emit .value).skip 1 with candidate := none, keyAllowed := false }
  | none =>
    if !s.inFlow && !s.keyAllowed then s.refuse "a value is not allowed here"
    else
      let s := s.roll s.mark.column none .blockMappingStart
      .ok { (s.emit .value).skip 1 with keyAllowed := !s.inFlow }

/-- Goes on after a part that was read, with its token. -/
def takePart (s : Scanner) (part : Part Token) : Scanner :=
  { s.emit part.value with rest := part.rest, mark := part.mark, keyAllowed := false }

/-- Takes an anchor or a reference to one. -/
def takeName (s : Scanner) (token : String → Token) : Except Fault Scanner := do
  let s ← s.saveCandidate
  let part ← readName (s.mark.advance 1) (s.rest.drop 1)
  return s.takePart ⟨token part.value, part.rest, part.mark⟩

/-- Takes a tag. -/
def takeTag (s : Scanner) : Except Fault Scanner := do
  let s ← s.saveCandidate
  return s.takePart (← readTag s.inFlow s.mark s.rest)

/-- Takes a block scalar. -/
def takeBlockScalar (s : Scanner) (folded : Bool) : Except Fault Scanner := do
  let s ← s.dropCandidate
  let (text, rest, mark) ← readBlockScalar folded s.margin (s.mark.advance 1) (s.rest.drop 1)
  let token := Token.scalar text (if folded then .folded else .literal)
  return { s.emit token with rest, mark, keyAllowed := true }

/-- Takes a quoted scalar. -/
def takeQuotedScalar (s : Scanner) (single : Bool) : Except Fault Scanner := do
  let s ← s.saveCandidate
  let (text, rest, mark) ← readQuoted single [] .word (s.mark.advance 1) (s.rest.drop 1)
  return s.takePart ⟨.scalar text (if single then .singleQuoted else .doubleQuoted), rest, mark⟩

/-- Takes a plain scalar. A key may begin after it if its line has ended. -/
def takePlainScalar (s : Scanner) : Except Fault Scanner := do
  let s ← s.saveCandidate
  let plain ← readPlain s.inFlow s.margin [] .empty false s.mark s.rest
  return { s.emit (.scalar plain.text .plain) with
    rest := plain.rest, mark := plain.mark, keyAllowed := plain.broken }

/-- Whether a plain scalar may begin with a character. -/
def beginsPlain (flow : Bool) (c : Char) (rest : List Char) : Bool :=
  if c = '-' then !rest.head?.any isSpace
  else if c = '?' || c = ':' then !flow && !atGap rest
  else !"\t,[]\x7b\x7d#&*!|>'\"%@\x60".toList.contains c

/-- Takes the token that begins with a character, at a place where one has to begin. -/
def takeToken (s : Scanner) (c : Char) (rest : List Char) : Except Fault Scanner :=
  let flow := s.inFlow
  if s.mark.column = 0 && c = '%' then s.takeDirective
  else if s.mark.column = 0 && atDocumentMark s.rest then
    s.takeDocumentMark (if c = '-' then .documentStart else .documentEnd)
  else if c = '[' then s.openFlow .flowSequenceStart
  else if c = '\x7b' then s.openFlow .flowMappingStart
  else if c = ']' then s.closeFlow .flowSequenceEnd
  else if c = '\x7d' then s.closeFlow .flowMappingEnd
  else if c = ',' then s.takeFlowEntry
  else if c = '-' && atGap rest then s.takeBlockEntry
  else if c = '?' && (flow || atGap rest) then s.takeKey
  else if c = ':' && (flow || atGap rest) then s.takeValue
  else if c = '*' then s.takeName .reference
  else if c = '&' then s.takeName .anchor
  else if c = '!' then s.takeTag
  else if c = '|' && !flow then s.takeBlockScalar false
  else if c = '>' && !flow then s.takeBlockScalar true
  else if c = '\'' then s.takeQuotedScalar true
  else if c = '"' then s.takeQuotedScalar false
  else if beginsPlain flow c rest then s.takePlainScalar
  else s.refuse "no token begins with this character"

/-- Takes tokens to the end of the stream, at most as many as `fuel` says. -/
def takeTokens : Nat → Scanner → Except Fault Scanner
  | 0, s => s.refuse "too many tokens"
  | fuel + 1, s => do
    let s ← s.nextToken
    match s.rest with
    | [] => s.finish
    | c :: rest =>
      let s ← s.takeToken c rest
      takeTokens fuel s

end Scanner

/-- The tokens of a stream. Each begins with a character of its own, or is the end. -/
def Token.ofChars (cs : List Char) : Except Fault (List Token) :=
  (Scanner.takeTokens (cs.length + 1) (.start cs)).map fun s => s.tokens.reverse

end DevfilePush.Yaml
