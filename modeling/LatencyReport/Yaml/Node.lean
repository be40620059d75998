import LatencyReport.Yaml.Token

/-!
# `Yaml.Node` — the values of a text

A document is one **node**: a scalar, a sequence or a mapping, each with a tag if one is written. A node can be given
a name, and the name then stands for the node wherever it is written later on. A name inside the very node that it
names stands for nothing that can be read.

Reading goes by the tokens alone. Where a value may be left out, an empty plain scalar stands for it.

## Contents

* `Node`;
* `Named` — the nodes with a name, and the meanings of tags' handles;
* `Node.read` and its companions — a node off the front of the tokens;
* `Node.ofTokens?`, `Node.ofText?` — the only document of a text.
-/

namespace LatencyReport.Yaml

/-- A value. -/
inductive Node where
  | scalar (tag : Option String) (style : Style) (text : String)
  | sequence (tag : Option String) (items : List Node)
  | mapping (tag : Option String) (entries : List (Node × Node))
  /-- A node that holds itself. -/
  | endless

namespace Node

/-- The value that is left out. -/
def blank : Node := .scalar none .plain ""

end Node

/-- What names mean. -/
structure Named where
  anchors : List (String × Node) := []
  handles : List (String × String) := []

namespace Named

/-- What a tag means. -/
def tag? (n : Named) (handle suffix : String) : Option String :=
  if handle.isEmpty then some suffix else (n.handles.lookup handle).map (· ++ suffix)

/-- The names with one more. -/
def name (n : Named) (anchor : Option String) (node : Node) : Named :=
  match anchor with
  | none => n
  | some a => { n with anchors := (a, node) :: n.anchors }

end Named

/-- A name and a tag before a node, in either order, and the tokens after them. -/
def readProperties (n : Named) : List Token → Option (Option String × Option String × List Token)
  | .anchor a :: .tag handle suffix :: rest => (n.tag? handle suffix).map fun t => (some a, some t, rest)
  | .tag handle suffix :: .anchor a :: rest => (n.tag? handle suffix).map fun t => (some a, some t, rest)
  | .tag handle suffix :: rest => (n.tag? handle suffix).map fun t => (none, some t, rest)
  | .anchor a :: rest => some (some a, none, rest)
  | tokens => some (none, none, tokens)

/-- The tag of a scalar. A lone exclamation mark is none. -/
def scalarTag (tag : Option String) : Option String :=
  if tag = some "!" then none else tag

/-- Where a node stands, which decides what it can be. -/
inductive Place where
  | inBlock
  /-- A value of a block mapping, which can be a sequence without indentation. -/
  | inMapping
  | inFlow
deriving DecidableEq, Repr

/-- What reading gives: a value, the names known after it, and the tokens that are left. -/
abbrev Read (α : Type) := Option (α × Named × List Token)

mutual

/-- A node off the front of the tokens. -/
def readNode (place : Place) : (fuel : Nat) → Named → List Token → Read Node
  | 0, _, _ => none
  | fuel + 1, n, tokens =>
    match tokens with
    | .reference a :: rest => (n.anchors.lookup a).map fun node => (node, n, rest)
    | _ =>
      match readProperties n tokens with
      | none => none
      | some (anchor, tag, rest) =>
        let inner := n.name anchor .endless
        let named : Read Node → Read Node := fun result => result.map fun (node, after, left) => (node, after.name anchor node, left)
        match rest with
        | .blockEntry :: _ =>
          if place = .inMapping then
            named ((readPlainItems fuel inner rest).map fun (items, after, left) => (.sequence tag items, after, left))
          else if anchor.isSome || tag.isSome then
            named (some (.scalar (scalarTag tag) .plain "", inner, rest))
          else none
        | .scalar style text :: left => named (some (.scalar (scalarTag tag) style text, inner, left))
        | .flowSequenceStart :: left =>
          named ((readFlowItems fuel true inner left).map fun (items, after, left) => (.sequence tag items, after, left))
        | .flowMappingStart :: left =>
          named ((readFlowEntries fuel true inner left).map fun (entries, after, left) =>
            (.mapping tag entries, after, left))
        | .blockSequenceStart :: left =>
          if place = .inFlow then
            if anchor.isSome || tag.isSome then named (some (.scalar (scalarTag tag) .plain "", inner, rest)) else none
          else
            named ((readBlockItems fuel inner left).map fun (items, after, left) => (.sequence tag items, after, left))
        | .blockMappingStart :: left =>
          if place = .inFlow then
            if anchor.isSome || tag.isSome then named (some (.scalar (scalarTag tag) .plain "", inner, rest)) else none
          else
            named ((readBlockEntries fuel inner left).map fun (entries, after, left) =>
              (.mapping tag entries, after, left))
        | _ =>
          if anchor.isSome || tag.isSome then named (some (.scalar (scalarTag tag) .plain "", inner, rest)) else none

/-- A node, or the blank one before a token at which no node starts. -/
def readOrBlank (place : Place) (ends : Token → Bool) : (fuel : Nat) → Named → List Token → Read Node
  | 0, _, _ => none
  | fuel + 1, n, tokens =>
    if tokens.head?.any ends then some (.blank, n, tokens) else readNode place fuel n tokens

/-- The items of a block sequence and its end. -/
def readBlockItems : (fuel : Nat) → Named → List Token → Read (List Node)
  | 0, _, _ => none
  | fuel + 1, n, tokens =>
    match tokens with
    | .blockEnd :: rest => some ([], n, rest)
    | .blockEntry :: rest =>
      match readOrBlank .inBlock (fun t => t == .blockEntry || t == .blockEnd) fuel n rest with
      | none => none
      | some (item, n, rest) =>
        (readBlockItems fuel n rest).map fun (items, n, rest) => (item :: items, n, rest)
    | _ => none

/-- The items of a sequence without indentation. Its end has no token. -/
def readPlainItems : (fuel : Nat) → Named → List Token → Read (List Node)
  | 0, _, _ => none
  | fuel + 1, n, tokens =>
    match tokens with
    | .blockEntry :: rest =>
      match readOrBlank .inBlock (fun t => t == .blockEntry || t == .key || t == .value || t == .blockEnd) fuel n rest with
      | none => none
      | some (item, n, rest) =>
        (readPlainItems fuel n rest).map fun (items, n, rest) => (item :: items, n, rest)
    | _ => some ([], n, tokens)

/-- The entries of a block mapping and its end. -/
def readBlockEntries : (fuel : Nat) → Named → List Token → Read (List (Node × Node))
  | 0, _, _ => none
  | fuel + 1, n, tokens =>
    let ends : Token → Bool := fun t => t == .key || t == .value || t == .blockEnd
    let entry (key : Node) (n : Named) (rest : List Token) : Read (List (Node × Node)) :=
      let value : Read Node := match rest with
        | .value :: rest => readOrBlank .inMapping ends fuel n rest
        | _ => some (.blank, n, rest)
      match value with
      | none => none
      | some (value, n, rest) =>
        (readBlockEntries fuel n rest).map fun (entries, n, rest) => ((key, value) :: entries, n, rest)
    match tokens with
    | .blockEnd :: rest => some ([], n, rest)
    | .key :: rest =>
      match readOrBlank .inMapping ends fuel n rest with
      | none => none
      | some (key, n, rest) => entry key n rest
    | _ => none

/-- The items of a flow sequence and its end; `first` says that none was read so far. -/
def readFlowItems : (fuel : Nat) → (first : Bool) → Named → List Token → Read (List Node)
  | 0, _, _, _ => none
  | fuel + 1, first, n, tokens =>
    let item (tokens : List Token) : Read (List Node) :=
      match tokens with
      | .flowSequenceEnd :: rest => some ([], n, rest)
      | .key :: rest =>
        match readSinglePair fuel n rest with
        | none => none
        | some (pair, n, rest) =>
          (readFlowItems fuel false n rest).map fun (items, n, rest) => (.mapping none [pair] :: items, n, rest)
      | _ =>
        match readNode .inFlow fuel n tokens with
        | none => none
        | some (item, n, rest) => (readFlowItems fuel false n rest).map fun (items, n, rest) => (item :: items, n, rest)
    if first then item tokens
    else
      match tokens with
      | .flowSequenceEnd :: rest => some ([], n, rest)
      | .flowEntry :: rest => item rest
      | _ => none

/-- A key and a value that are an item of a flow sequence. A key that is left out takes the next sign with it. -/
def readSinglePair : (fuel : Nat) → Named → List Token → Read (Node × Node)
  | 0, _, _ => none
  | fuel + 1, n, tokens =>
    let key : Read Node := match tokens with
      | .value :: rest | .flowEntry :: rest | .flowSequenceEnd :: rest => some (.blank, n, rest)
      | _ => readNode .inFlow fuel n tokens
    match key with
    | none => none
    | some (key, n, .value :: rest) =>
      (readOrBlank .inFlow (fun t => t == .flowEntry || t == .flowSequenceEnd) fuel n rest).map
        fun (value, n, rest) => ((key, value), n, rest)
    | some (key, n, rest) => some ((key, .blank), n, rest)

/-- The entries of a flow mapping and its end; `first` says that none was read so far. -/
def readFlowEntries : (fuel : Nat) → (first : Bool) → Named → List Token → Read (List (Node × Node))
  | 0, _, _, _ => none
  | fuel + 1, first, n, tokens =>
    let ends : Token → Bool := fun t => t == .flowEntry || t == .flowMappingEnd
    let entry (key : Node) (n : Named) (rest : List Token) : Read (List (Node × Node)) :=
      let value : Read Node := match rest with
        | .value :: rest => readOrBlank .inFlow ends fuel n rest
        | _ => some (.blank, n, rest)
      match value with
      | none => none
      | some (value, n, rest) =>
        (readFlowEntries fuel false n rest).map fun (entries, n, rest) => ((key, value) :: entries, n, rest)
    let item (tokens : List Token) : Read (List (Node × Node)) :=
      match tokens with
      | .flowMappingEnd :: rest => some ([], n, rest)
      | .key :: rest =>
        match readOrBlank .inFlow (fun t => ends t || t == .value) fuel n rest with
        | none => none
        | some (key, n, rest) => entry key n rest
      | _ =>
        match readNode .inFlow fuel n tokens with
        | none => none
        | some (key, n, rest) =>
          (readFlowEntries fuel false n rest).map fun (entries, n, rest) => ((key, .blank) :: entries, n, rest)
    if first then item tokens
    else
      match tokens with
      | .flowMappingEnd :: rest => some ([], n, rest)
      | .flowEntry :: rest => item rest
      | _ => none

end

/-! ## Documents -/

/-- The handles that have a meaning without a directive. -/
def builtInHandles : List (String × String) :=
  [("!", "!"), ("!!", "tag:yaml.org,2002:")]

/-- The handles that directives give a meaning, and the tokens after the directives. At most one directive tells the
version, which has to be a known one; no handle has two meanings. -/
def readDirectives (versioned : Bool) (handles : List (String × String)) :
    List Token → Option (List (String × String) × Bool × List Token)
  | .version major minor :: rest =>
    if versioned || major != 1 || !(minor == 1 || minor == 2) then none
    else (readDirectives true handles rest).map fun (handles, _, rest) => (handles, true, rest)
  | .tagDirective handle meaning :: rest =>
    if (handles.lookup handle).isSome then none
    else (readDirectives versioned (handles ++ [(handle, meaning)]) rest).map fun (handles, _, rest) =>
      (handles, true, rest)
  | rest => some (handles, false, rest)

/-- Whether nothing but ends of documents is left. -/
def isOver : List Token → Bool
  | .documentEnd :: rest => isOver rest
  | [.streamEnd] => true
  | _ => false

/-- Whether a document has no content before a token. -/
def endsDocument : Token → Bool
  | .version .. | .tagDirective .. | .documentStart | .documentEnd | .streamEnd => true
  | _ => false

/-- The node of the only document that tokens make up. -/
def Node.ofTokens? (tokens : List Token) : Option Node :=
  match readDirectives false [] tokens with
  | none => none
  | some (handles, directed, rest) =>
    let n : Named := { handles := handles ++ builtInHandles }
    let fuel := 4 * tokens.length + 4
    let content : Read Node :=
      match rest with
      | .documentStart :: rest => readOrBlank .inBlock endsDocument fuel n rest
      | _ => if directed then none else readNode .inBlock fuel n rest
    match content with
    | some (node, _, rest) => if isOver rest then some node else none
    | none => none

/-- The node of the only document of a text. -/
def Node.ofText? (text : String) : Option Node :=
  (Token.scan text).bind Node.ofTokens?

end LatencyReport.Yaml
