import DevfilePush.Yaml.Token.Scan

/-!
# YAML events

The structure of a stream: where documents and collections begin and end, and the scalars and
references within them. The grammar is read by a machine with a stack of what is to come, so a stream
may nest to any depth.

## Main definitions

* `Yaml.Event`
* `Yaml.Parser`: the machine's state.
* `Yaml.Event.ofTokens`: the events of a stream.
-/

namespace DevfilePush.Yaml

/-- An event of a YAML stream. -/
inductive Event where
  | documentStart
  | documentEnd
  | sequenceStart (anchor : Option String)
  | sequenceEnd
  | mappingStart (anchor : Option String)
  | mappingEnd
  | scalar (anchor : Option String) (tag : Option Tag) (text : String) (style : ScalarStyle)
  | reference (name : String)
  deriving DecidableEq, Repr

/-- What is to come next in a stream. -/
inductive Expected where
  /-- A document, which may begin without a mark. -/
  | firstDocument
  /-- A document, which has to begin with a mark. -/
  | document
  /-- The content of a document after its mark. -/
  | documentContent
  | documentEnd
  /-- A node in block style. -/
  | blockNode
  | blockSequenceEntry
  /-- An entry of a block sequence that is not indented further than the key it belongs to. -/
  | flatSequenceEntry
  | blockMappingKey
  | blockMappingValue
  | firstFlowEntry
  | flowEntry
  /-- The key of a mapping of one pair within a flow sequence. -/
  | pairKey
  | pairValue
  | pairEnd
  | firstFlowKey
  | flowKey
  | flowValue
  /-- The value of a key of a flow mapping that has none. -/
  | flowNoValue
  deriving DecidableEq, Repr

/-- The state of the machine that reads the grammar. -/
structure Parser where
  tokens : List Token
  /-- The events so far, in reverse. -/
  events : List Event
  expected : Expected
  /-- What is to come after what is to come next. -/
  later : List Expected
  /-- What the handles of tags stand for in this document. -/
  handles : List (String × Tag)

namespace Parser

/-- The beginning of a stream. -/
def start (tokens : List Token) : Parser := ⟨tokens, [], .firstDocument, [], []⟩

/-- Refuses a stream. The place is not kept with tokens, so a fault of the grammar has none. -/
def refuse {α : Type} (reason : String) : Except Fault α := .error ⟨reason, .start⟩

/-- Adds an event. -/
def emit (p : Parser) (event : Event) : Parser := { p with events := event :: p.events }

/-- Goes on after a token. -/
def skip (p : Parser) : Parser := { p with tokens := p.tokens.drop 1 }

/-- Goes on with what comes later. -/
def pop (p : Parser) : Parser :=
  match p.later with
  | expected :: later => { p with expected, later }
  | [] => p

/-- An empty scalar where a node is left out. -/
def emitEmpty (p : Parser) (expected : Expected) : Parser :=
  { p.emit (.scalar none none "" .plain) with expected }

/-! ## Nodes -/

/-- The properties of a node: its anchor and its tag. -/
structure Properties where
  anchor : Option String
  tag : Option (String × Tag)

/-- Reads the properties of a node, in either order. -/
def readProperties : List Token → Properties × List Token
  | .anchor a :: .tag h t :: rest => (⟨some a, some (h, t)⟩, rest)
  | .tag h t :: .anchor a :: rest => (⟨some a, some (h, t)⟩, rest)
  | .anchor a :: rest => (⟨some a, none⟩, rest)
  | .tag h t :: rest => (⟨none, some (h, t)⟩, rest)
  | rest => (⟨none, none⟩, rest)

/-- The tag that a handle and a suffix stand for. -/
def resolveTag (p : Parser) : Option (String × Tag) → Except Fault (Option Tag)
  | none => .ok none
  | some ("", suffix) => .ok (some suffix)
  | some (handle, suffix) =>
    match p.handles.lookup handle with
    | some start => .ok (some (start ++ suffix))
    | none => refuse "an undefined tag handle"

/-- Reads a node, in block or flow style; a flat sequence is allowed where `flat` says so. -/
def readNode (p : Parser) (block flat : Bool) : Except Fault Parser :=
  match p.tokens with
  | .reference name :: _ => .ok ((p.emit (.reference name)).skip.pop)
  | _ =>
    let (properties, tokens) := readProperties p.tokens
    match p.resolveTag properties.tag with
    | .error fault => .error fault
    | .ok tag =>
      let anchor := properties.anchor
      let p := { p with tokens }
      let enter (event : Event) (expected : Expected) : Except Fault Parser :=
        .ok { (p.emit event).skip with expected }
      match tokens with
      | .scalar text style :: _ =>
        .ok ((p.emit (.scalar anchor tag text style)).skip.pop)
      | .flowSequenceStart :: _ => enter (.sequenceStart anchor) .firstFlowEntry
      | .flowMappingStart :: _ => enter (.mappingStart anchor) .firstFlowKey
      | next =>
        if flat && next.head? = some .blockEntry then
          .ok { p.emit (.sequenceStart anchor) with expected := .flatSequenceEntry }
        else if block && next.head? = some .blockSequenceStart then
          enter (.sequenceStart anchor) .blockSequenceEntry
        else if block && next.head? = some .blockMappingStart then
          enter (.mappingStart anchor) .blockMappingKey
        else if anchor.isSome || tag.isSome then
          .ok ((p.emit (.scalar anchor tag "" .plain)).pop)
        else refuse "a node is expected"

/-- Reads a node, after which `next` is to come. -/
def readNodeThen (p : Parser) (next : Expected) (block flat : Bool) : Except Fault Parser :=
  { p with later := next :: p.later }.readNode block flat

/-! ## Documents -/

/-- What handles stand for unless a directive says otherwise. -/
def usualHandles : List (String × Tag) :=
  [("!", asciiOctets ['!']), ("!!", asciiOctets "tag:yaml.org,2002:".toList)]

/-- Reads directives: at most one version, which has to be 1.1 or 1.2, and each handle once. -/
def readDirectives (version : Bool) (handles : List (String × Tag)) :
    List Token → Except Fault (List (String × Tag) × List Token)
  | .versionDirective major minor :: rest =>
    if version then refuse "two versions"
    else if major ≠ 1 ∨ (minor ≠ 1 ∧ minor ≠ 2) then refuse "an unknown version"
    else readDirectives true handles rest
  | .tagDirective handle start :: rest =>
    if handles.any (·.1 = handle) then refuse "a tag handle is given twice"
    else readDirectives version (handles ++ [(handle, start)]) rest
  | rest => .ok (handles ++ usualHandles, rest)

/-- Whether a token belongs to what stands between documents. -/
def isBetweenDocuments : Option Token → Bool
  | none => true
  | some (.versionDirective _ _) | some (.tagDirective _ _) => true
  | some .documentStart | some .documentEnd => true
  | _ => false

/-- Reads the beginning of a document that has a mark; at the end of the stream there is none. -/
def readDocumentStart (p : Parser) : Except Fault (Option Parser) :=
  match p.tokens with
  | [] => .ok none
  | _ =>
    match readDirectives false [] p.tokens with
    | .error fault => .error fault
    | .ok (handles, .documentStart :: tokens) =>
      .ok (some { p.emit .documentStart with
        tokens, handles
        expected := .documentContent
        later := .documentEnd :: p.later })
    | .ok _ => refuse "the start of a document is expected"

/-- Reads the beginning of the first document, which may do without a mark. -/
def readFirstDocument (p : Parser) : Except Fault (Option Parser) :=
  match p.tokens.head? with
  | none | some .documentStart | some (.versionDirective _ _) | some (.tagDirective _ _) =>
    p.readDocumentStart
  | _ =>
    .ok (some { p.emit .documentStart with
      handles := usualHandles
      expected := .blockNode
      later := .documentEnd :: p.later })

/-! ## Collections -/

/-- Ends a collection at its last token. -/
def endWith (p : Parser) (event : Event) : Except Fault Parser := .ok (p.emit event).skip.pop

/-- Reads what follows an indicator: a node, or nothing before one of the tokens `stops`. -/
def readAfter (p : Parser) (stops : List Token) (next : Expected) (block flat : Bool) :
    Except Fault Parser :=
  match p.tokens with
  | token :: _ =>
    if token ∈ stops then .ok (p.emitEmpty next) else p.readNodeThen next block flat
  | [] => p.readNodeThen next block flat

/-- Reads an entry of a flow sequence, a pair, or the end. -/
def readFlowEntry (p : Parser) : Except Fault Parser :=
  match p.tokens with
  | .flowSequenceEnd :: _ => p.endWith .sequenceEnd
  | .key :: _ => .ok { (p.emit (.mappingStart none)).skip with expected := .pairKey }
  | _ => p.readNodeThen .flowEntry false false

/-- Reads a key of a flow mapping, or the end. -/
def readFlowKey (p : Parser) : Except Fault Parser :=
  match p.tokens with
  | .flowMappingEnd :: _ => p.endWith .mappingEnd
  | .key :: _ => p.skip.readAfter [.value, .flowEntry, .flowMappingEnd] .flowValue false false
  | _ => p.readNodeThen .flowNoValue false false

/-- Does what is to come next; nothing at the end of the stream. -/
def step (p : Parser) : Except Fault (Option Parser) :=
  match p.expected with
  | .firstDocument => p.readFirstDocument
  | .document =>
    readDocumentStart { p with tokens := p.tokens.dropWhile (· = .documentEnd) }
  | .documentContent =>
    if isBetweenDocuments p.tokens.head? then .ok (some (p.emitEmpty .documentEnd).pop)
    else (p.readNode true false).map some
  | .documentEnd =>
    let tokens := match p.tokens with
      | .documentEnd :: rest => rest
      | rest => rest
    .ok (some { p.emit .documentEnd with tokens, handles := [], expected := .document })
  | .blockNode => (p.readNode true false).map some
  | .blockSequenceEntry =>
    match p.tokens with
    | .blockEntry :: _ =>
      (p.skip.readAfter [.blockEntry, .blockEnd] .blockSequenceEntry true false).map some
    | .blockEnd :: _ => (p.endWith .sequenceEnd).map some
    | _ => refuse "an entry of a sequence is expected"
  | .flatSequenceEntry =>
    match p.tokens with
    | .blockEntry :: _ =>
      (p.skip.readAfter [.blockEntry, .key, .value, .blockEnd] .flatSequenceEntry true
        false).map some
    | _ => .ok (some (p.emit .sequenceEnd).pop)
  | .blockMappingKey =>
    match p.tokens with
    | .key :: _ =>
      (p.skip.readAfter [.key, .value, .blockEnd] .blockMappingValue true true).map some
    | .blockEnd :: _ => (p.endWith .mappingEnd).map some
    | _ => refuse "a key is expected"
  | .blockMappingValue =>
    match p.tokens with
    | .value :: _ =>
      (p.skip.readAfter [.key, .value, .blockEnd] .blockMappingKey true true).map some
    | _ => .ok (some (p.emitEmpty .blockMappingKey))
  | .firstFlowEntry => p.readFlowEntry.map some
  | .flowEntry =>
    match p.tokens with
    | .flowSequenceEnd :: _ => (p.endWith .sequenceEnd).map some
    | .flowEntry :: _ => p.skip.readFlowEntry.map some
    | _ => refuse "a comma or a bracket is expected"
  | .pairKey =>
    match p.tokens with
    | .value :: _ | .flowEntry :: _ | .flowSequenceEnd :: _ =>
      .ok (some (p.skip.emitEmpty .pairValue))
    | _ => (p.readNodeThen .pairValue false false).map some
  | .pairValue =>
    match p.tokens with
    | .value :: _ =>
      (p.skip.readAfter [.flowEntry, .flowSequenceEnd] .pairEnd false false).map some
    | _ => .ok (some (p.emitEmpty .pairEnd))
  | .pairEnd => .ok (some { p.emit .mappingEnd with expected := .flowEntry })
  | .firstFlowKey => p.readFlowKey.map some
  | .flowKey =>
    match p.tokens with
    | .flowMappingEnd :: _ => (p.endWith .mappingEnd).map some
    | .flowEntry :: _ => p.skip.readFlowKey.map some
    | _ => refuse "a comma or a brace is expected"
  | .flowValue =>
    match p.tokens with
    | .value :: _ =>
      (p.skip.readAfter [.flowEntry, .flowMappingEnd] .flowKey false false).map some
    | _ => .ok (some (p.emitEmpty .flowKey))
  | .flowNoValue => .ok (some (p.emitEmpty .flowKey))

/-- Does at most so many steps; the events are those at the end of the stream. -/
def run : Nat → Parser → Except Fault (List Event)
  | 0, _ => refuse "too many events"
  | fuel + 1, p =>
    match p.step with
    | .error fault => .error fault
    | .ok none => .ok p.events.reverse
    | .ok (some p) => run fuel p

end Parser

/-- The events of a stream. No token is worth more than a few of them. -/
def Event.ofTokens (tokens : List Token) : Except Fault (List Event) :=
  Parser.run (8 * tokens.length + 16) (.start tokens)

end DevfilePush.Yaml
