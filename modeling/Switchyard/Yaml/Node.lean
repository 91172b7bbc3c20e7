import Switchyard.Yaml.Kind
import Switchyard.Yaml.Token

/-!
# The nodes of a YAML document

A document is a tree of scalars, sequences and mappings, each with a tag that says what it
stands for. A node with an anchor may be used again by that name further on; it is put in
wherever it is used. Only a collection that contains itself cannot be put in; there it is a node
of its own that marks the place.
-/

namespace Switchyard.Yaml

/-- A node. -/
inductive Node
  | scalar (tag text : String)
  | sequence (tag : String) (items : List Node)
  | mapping (tag : String) (pairs : List (Node × Node))
  /-- A collection that this node is a part of. -/
  | enclosing
  deriving Inhabited

def Node.tag : Node → String
  | .scalar tag _ | .sequence tag _ | .mapping tag _ => tag
  | .enclosing => ""

def Node.nothing : Node := .scalar (plainTag "") ""

/-! ## Reading tokens -/

/-- The state of reading nodes. -/
structure NodeState where
  tokens : List Token
  /-- What handles of tags stand for. -/
  handles : List (String × String) := []
  /-- The nodes with a name; a collection that is still open has none yet. -/
  anchors : List (String × Option Node) := []

abbrev NodeReader := StateT NodeState (Except Problem)

namespace NodeReader

/-- Gives up. -/
def fail {α : Type} (what : String) : NodeReader α := throw (.malformed what)

def peek : NodeReader Token := do
  match (← get).tokens with
  | .broken problem :: _ => throw problem
  | t :: _ => pure t
  | [] => pure .done

def pass : NodeReader Unit := modify fun s => { s with tokens := s.tokens.drop 1 }

/-- Passes the next token if it is the one named. -/
def passIf (test : Token → Bool) : NodeReader Bool := do
  if test (← peek) then
    pass
    pure true
  else pure false

/-- Whether a token opens an entry of a block sequence. -/
def isBlockEntry : Token → Bool
  | .blockEntry => true
  | _ => false

def isKey : Token → Bool
  | .key => true
  | _ => false

def isValue : Token → Bool
  | .value => true
  | _ => false

def isBlockEnd : Token → Bool
  | .blockEnd => true
  | _ => false

/-- Whether a token is a comma between brackets. -/
def isFlowEntry : Token → Bool
  | .flowEntry => true
  | _ => false

/-- Whether a token closes a sequence between brackets. -/
def isSequenceEnd : Token → Bool
  | .flowSequenceEnd => true
  | _ => false

/-- Whether a token closes a mapping between brackets. -/
def isMappingEnd : Token → Bool
  | .flowMappingEnd => true
  | _ => false

/-- Whether a token is the mark that ends a document. -/
def isDocumentEnd : Token → Bool
  | .documentEnd => true
  | _ => false

/-- Passes the comma between two entries. -/
def passComma : NodeReader Unit := do
  if !(← passIf isFlowEntry) then fail "expected ',' or a closing bracket"

/-- Whether nothing comes before a part of a block mapping ends. -/
def endsBlockPart (t : Token) : Bool := isKey t || isValue t || isBlockEnd t

/-! ## Properties of nodes -/

/-- The tag that a handle and a suffix stand for. -/
def fullTag (handle : Option String) (suffix : String) : NodeReader String := do
  match handle with
  | none => pure suffix
  | some handle => match (← get).handles.lookup handle with
    | some stands => pure (stands ++ suffix)
    | none => fail ("found undefined tag handle " ++ handle)

/-- The tag at the next token, if there is one. -/
def tag? : NodeReader (Option String) := do
  match ← peek with
  | .tag handle suffix =>
    pass
    pure (some (← fullTag handle suffix))
  | _ => pure none

/-- The name at the next token, if there is one. -/
def anchor? : NodeReader (Option String) := do
  match ← peek with
  | .anchor name =>
    pass
    pure (some name)
  | _ => pure none

/-- The name and the tag of a node, in either order. -/
def properties : NodeReader (Option String × Option String) := do
  match ← anchor? with
  | some name => pure (some name, ← tag?)
  | none => match ← tag? with
    | some tag => pure (← anchor?, some tag)
    | none => pure (none, none)

/-- Names a node that is about to be read. A name is given once. -/
def declare (name : Option String) : NodeReader Unit := do
  match name with
  | none => pure ()
  | some name =>
    if ((← get).anchors.lookup name).isSome then fail ("found duplicate anchor " ++ name)
    modify fun s => { s with anchors := (name, none) :: s.anchors }

/-- Keeps a node under its name. -/
def define (name : Option String) (node : Node) : NodeReader Node := do
  match name with
  | none => pure ()
  | some name => modify fun s => { s with anchors := (name, some node) :: s.anchors }
  pure node

def named (name : String) : NodeReader Node := do
  match (← get).anchors.lookup name with
  | some (some node) => pure node
  -- The node with this name is still being read, so the alias stands inside of it.
  | some none => pure .enclosing
  | none => fail ("found undefined alias " ++ name)

def scalar (tag : Option String) (text : String) (isPlain : Bool) : Node :=
  .scalar (match tag with
    | none => if isPlain then plainTag text else coreTag "str"
    -- The mark alone asks for the type that a plain text would have.
    | some "!" => plainTag text
    | some tag => tag) text

def collectionTag (tag : Option String) (default : String) : String :=
  match tag with
  | some tag => if tag = "!" then coreTag default else tag
  | none => coreTag default

/-! ## Nodes -/

/-- Where a node stands: between brackets, in a block, or where a block sequence
needs no indentation. -/
inductive Setting
  | flow
  | block
  | pair
  deriving DecidableEq, Repr

mutual

/-- Reads a node. -/
def node : (fuel : Nat) → Setting → NodeReader Node
  | 0, _ => fail "found too many tokens"
  | fuel + 1, setting => do
    if let .alias name ← peek then
      pass
      return ← named name
    let (name, tag) ← properties
    match ← peek with
    | .scalar text isPlain =>
      pass
      declare name
      define name (scalar tag text isPlain)
    | .flowSequenceStart =>
      pass
      declare name
      define name (.sequence (collectionTag tag "seq") (← flowItems fuel true))
    | .flowMappingStart =>
      pass
      declare name
      define name (.mapping (collectionTag tag "map") (← flowPairs fuel true))
    | t =>
      -- A hyphen opens a sequence without indentation only as part of a pair.
      let opens := setting ≠ .flow && (match t with
        | .sequenceStart | .mappingStart => true
        | .blockEntry => setting = .pair
        | _ => false)
      if opens then
        declare name
        match t with
        | .sequenceStart =>
          pass
          define name (.sequence (collectionTag tag "seq") (← blockItems fuel))
        | .mappingStart =>
          pass
          define name (.mapping (collectionTag tag "map") (← blockPairs fuel))
        | _ => define name (.sequence (collectionTag tag "seq") (← openItems fuel))
      -- A name or a tag without content belongs to an empty scalar.
      else if name.isSome || tag.isSome then
        declare name
        define name (scalar tag "" true)
      else fail "expected the content of a node"

/-- Reads a node, unless what is next ends the part of the collection that it would be in. -/
def nodeUnless (ends : Token → Bool) : (fuel : Nat) → Setting → NodeReader Node
  | 0, _ => fail "found too many tokens"
  | fuel + 1, setting => do
    if ends (← peek) then pure .nothing else node fuel setting

/-- Reads the value of a pair, which may be missing. -/
def pairValue (ends : Token → Bool) : (fuel : Nat) → Setting → NodeReader Node
  | 0, _ => fail "found too many tokens"
  | fuel + 1, setting => do
    if ← passIf isValue then nodeUnless ends fuel setting else pure .nothing

def blockItems : (fuel : Nat) → NodeReader (List Node)
  | 0 => fail "found too many tokens"
  | fuel + 1 => do
    if ← passIf isBlockEntry then
      let item ← nodeUnless (fun t => isBlockEntry t || isBlockEnd t) fuel .block
      pure (item :: (← blockItems fuel))
    else if ← passIf isBlockEnd then pure []
    else fail "expected the end of a block sequence"

/-- Reads the entries of a block sequence that is not indented further than its key. -/
def openItems : (fuel : Nat) → NodeReader (List Node)
  | 0 => fail "found too many tokens"
  | fuel + 1 => do
    if ← passIf isBlockEntry then
      let item ← nodeUnless (fun t => isBlockEntry t || endsBlockPart t) fuel .block
      pure (item :: (← openItems fuel))
    else pure []

/-- Reads the pairs of a block mapping. -/
def blockPairs : (fuel : Nat) → NodeReader (List (Node × Node))
  | 0 => fail "found too many tokens"
  | fuel + 1 => do
    if ← passIf isKey then
      let key ← nodeUnless endsBlockPart fuel .pair
      let value ← pairValue endsBlockPart fuel .pair
      pure ((key, value) :: (← blockPairs fuel))
    else if ← passIf isBlockEnd then pure []
    else fail "expected the end of a block mapping"

/-- Reads the entries of a sequence between brackets. A single pair there is a
mapping of its own. -/
def flowItems : (fuel : Nat) → (isFirst : Bool) → NodeReader (List Node)
  | 0, _ => fail "found too many tokens"
  | fuel + 1, isFirst => do
    if ← passIf isSequenceEnd then return []
    unless isFirst do passComma
    if ← passIf isKey then
      let ends := fun t => isFlowEntry t || isSequenceEnd t
      let key ← nodeUnless (fun t => isValue t || ends t) fuel .flow
      let value ← pairValue ends fuel .flow
      pure (.mapping (coreTag "map") [(key, value)] :: (← flowItems fuel false))
    else if ← passIf isSequenceEnd then pure []
    else
      let item ← node fuel .flow
      pure (item :: (← flowItems fuel false))

/-- Reads the pairs of a mapping between brackets. -/
def flowPairs : (fuel : Nat) → (isFirst : Bool) → NodeReader (List (Node × Node))
  | 0, _ => fail "found too many tokens"
  | fuel + 1, isFirst => do
    if ← passIf isMappingEnd then return []
    unless isFirst do passComma
    if ← passIf isKey then
      let ends := fun t => isFlowEntry t || isMappingEnd t
      let key ← nodeUnless (fun t => isValue t || ends t) fuel .flow
      let value ← pairValue ends fuel .flow
      pure ((key, value) :: (← flowPairs fuel false))
    else if ← passIf isMappingEnd then pure []
    else
      -- A key without a value.
      let key ← node fuel .flow
      pure ((key, .nothing) :: (← flowPairs fuel false))

end

/-! ## Documents -/

/-- What handles stand for where no directive says otherwise. -/
def commonHandles : List (String × String) := [("!", "!"), ("!!", coreTag "")]

def directives :
    (fuel : Nat) → (hasVersion : Bool) → (handles : List (String × String)) → NodeReader Unit
  | 0, _, _ => fail "found too many tokens"
  | fuel + 1, hasVersion, handles => do
    match ← peek with
    | .directive d =>
      pass
      match d with
      | .version major =>
        if hasVersion then fail "found duplicate YAML directive"
        if major ≠ 1 then fail "found incompatible YAML document"
        directives fuel true handles
      | .handle name stands =>
        if (handles.lookup name).isSome then fail ("duplicate tag handle " ++ name)
        directives fuel hasVersion (handles ++ [(name, stands)])
      | .other => directives fuel hasVersion handles
    -- Handles that a directive gave come first, so they hide the common ones.
    | _ => modify fun s => { s with handles := handles ++ commonHandles }

/-- Whether a document without content ends at a token. -/
def endsDocument : Token → Bool
  | .directive _ | .documentStart | .documentEnd | .done => true
  | _ => false

def passEnds : (fuel : Nat) → NodeReader Unit
  | 0 => pure ()
  | fuel + 1 => do if ← passIf isDocumentEnd then passEnds fuel

/-- Goes on only at the end of the text. -/
def finish (fuel : Nat) : NodeReader Unit := do
  passEnds fuel
  match ← peek with
  | .done => pure ()
  | _ => fail "expected a single document in the stream"

/-- Reads the only document of a text, if there is one. A document may do without the mark at its
start when there are no directives. -/
def document (fuel : Nat) : NodeReader (Option Node) := do
  match ← peek with
  | .done => pure none
  | .directive _ | .documentStart =>
    directives fuel false []
    match ← peek with
    | .documentStart =>
      pass
      let root ← nodeUnless endsDocument fuel .block
      finish fuel
      pure (some root)
    | _ => fail "expected the start of a document"
  | _ =>
    modify fun s => { s with handles := commonHandles }
    let root ← node fuel .block
    finish fuel
    pure (some root)

end NodeReader

/-- The root of the document that a text holds, if there is one. No node takes more steps than four
for each of the tokens. -/
def Node.read? (text : List Char) : Except Problem (Option Node) :=
  let tokens := tokens text
  (NodeReader.document (4 * tokens.length + 4)).run' { tokens }

end Switchyard.Yaml
