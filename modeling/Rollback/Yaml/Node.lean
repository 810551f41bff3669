import Rollback.Json.Basic
import Rollback.Yaml.Token

/-!
# Nodes

The tokens of a text make up one document: a node that is a scalar, a sequence or a mapping, whose
parts are nodes again, or that refers to another node by its anchor. Where a node is missing an
empty scalar stands.
-/

namespace Rollback.Yaml

inductive Node where
  | scalar (text : String) (plain : Bool)
  | reference (number : Nat)
  | sequence (items : List Node)
  | mapping (members : List (Node × Node))

namespace Node

instance : Inhabited Node := ⟨scalar "" true⟩

/-- What stands where a node is missing. -/
def empty : Node := scalar "" true

end Node

/-- The anchors that were met. An anchor is numbered by how many names were in use in front of it,
and of several nodes with one number the one that begins last is meant. -/
structure Anchors where
  numbers : NameMap Nat
  /-- The numbers of the anchored nodes, in the order in which the nodes begin. -/
  order : List Nat
  /-- The anchored nodes, each with its place in the order. -/
  nodes : List (Nat × Node)

namespace Anchors

def none : Anchors := ⟨∅, [], []⟩

/-- Names a node that begins here. -/
def name (a : Anchors) (name : String) : Anchors where
  numbers := a.numbers.insert name a.numbers.size
  order := a.order ++ [a.numbers.size]
  nodes := a.nodes

def node? (a : Anchors) (number : Nat) : Option Node := do
  let last ← a.order.reverse.findIdx? (· = number)
  a.nodes.lookup (a.order.length - 1 - last)

end Anchors

/-- What is left to compose. -/
structure Composer where
  tokens : List Token
  handles : List String
  anchors : Anchors

/-- Takes tokens away and returns what they mean; nothing if they stand in a wrong order. -/
abbrev Compose := StateT Composer Option

namespace Compose

def next : Compose (Option Token) := return (← get).tokens.head?

def drop : Compose Unit := modify fun c => { c with tokens := c.tokens.tail }

def accept (token : Token) : Compose Bool := do
  if (← next) = some token then
    drop
    return true
  else return false

/-- Takes the next token, which has to be this one. -/
def expect (token : Token) : Compose Unit := do
  if !(← accept token) then failure

/-- Whether the next token is one of these. -/
def nextIn (tokens : List Token) : Compose Bool := return (← next).any (· ∈ tokens)

/-! ## Properties -/

def anchor : Compose (Option String) := do
  match ← next with
  | some (.anchor name) =>
    drop
    return some name
  | _ => return none

def tag : Compose Bool := do
  match ← next with
  | some (.tag handle) =>
    drop
    if handle.all (· ∈ (← get).handles) then return true else failure
  | _ => return false

/-- The anchor and the tag in front of a node, in any order. -/
def properties : Compose (Option String × Bool) := do
  match ← anchor with
  | some name => return (some name, ← tag)
  | none =>
    if ← tag then return (← anchor, true) else return (none, false)

/-- Names the node that begins here, and returns its place in the order of anchored nodes. -/
def begin (name : String) : Compose Nat := do
  let place := (← get).anchors.order.length
  modify fun c => { c with anchors := c.anchors.name name }
  return place

def finish (place : Nat) (node : Node) : Compose Unit :=
  modify fun c => { c with anchors.nodes := (place, node) :: c.anchors.nodes }

def reference (name : String) : Compose Node := do
  match (← get).anchors.numbers[name]? with
  | some number => return .reference number
  | none => failure

/-! ## Nodes -/

mutual
/-- A node. In a flow collection no block may begin, and a sequence that is not indented stands in
a mapping only. -/
def node : (steps : Nat) → (block indentless : Bool) → Compose Node
  | 0, _, _ => failure
  | steps + 1, block, indentless => do
    match ← next with
    | some (.reference name) =>
      drop
      reference name
    | _ =>
      let (anchor, tagged) ← properties
      let place ← anchor.mapM begin
      let node ← content steps block indentless (anchor.isSome || tagged)
      place.forM (finish · node)
      return node

def content : (steps : Nat) → (block indentless mayBeEmpty : Bool) → Compose Node
  | 0, _, _, _ => failure
  | steps + 1, block, indentless, mayBeEmpty => do
    let orEmpty : Compose Node := if mayBeEmpty then return .empty else failure
    match ← next with
    | some .item => if indentless then return .sequence (← indentlessItems steps) else orEmpty
    | some (.scalar text plain) =>
      drop
      return .scalar text plain
    | some .openSequence =>
      drop
      return .sequence (← flowItems steps true)
    | some .openMapping =>
      drop
      return .mapping (← flowMembers steps true)
    | some .blockSequence =>
      if block then
        drop
        return .sequence (← blockItems steps)
      else orEmpty
    | some .blockMapping =>
      if block then
        drop
        return .mapping (← blockMembers steps)
      else orEmpty
    | _ => orEmpty

/-- A node, or an empty one in front of these tokens. -/
def nodeUnless : (steps : Nat) → (block indentless : Bool) → List Token → Compose Node
  | 0, _, _, _ => failure
  | steps + 1, block, indentless, tokens => do
    if ← nextIn tokens then return .empty else node steps block indentless

/-- The items of a block up to its end. -/
def blockItems : (steps : Nat) → Compose (List Node)
  | 0 => failure
  | steps + 1 => do
    if ← accept .item then
      let first ← nodeUnless steps true false [.item, .blockEnd]
      return first :: (← blockItems steps)
    else
      expect .blockEnd
      return []

/-- The items that stand right under a key. -/
def indentlessItems : (steps : Nat) → Compose (List Node)
  | 0 => failure
  | steps + 1 => do
    if ← accept .item then
      let first ← nodeUnless steps true false [.item, .key, .value, .blockEnd]
      return first :: (← indentlessItems steps)
    else return []

/-- The members of a block up to its end. -/
def blockMembers : (steps : Nat) → Compose (List (Node × Node))
  | 0 => failure
  | steps + 1 => do
    if ← accept .key then
      let key ← nodeUnless steps true true [.key, .value, .blockEnd]
      let value ← if ← accept .value then nodeUnless steps true true [.key, .value, .blockEnd]
        else pure .empty
      return (key, value) :: (← blockMembers steps)
    else
      expect .blockEnd
      return []

/-- The items between brackets. An item may be a mapping of one member; if its key is missing, the
token in the key's place is lost. -/
def flowItems : (steps : Nat) → (atStart : Bool) → Compose (List Node)
  | 0, _ => failure
  | steps + 1, atStart => do
    if ← accept .closeSequence then return []
    else
      if !atStart then expect .comma
      if ← accept .key then
        let noKey ← nextIn [.value, .comma, .closeSequence]
        if noKey then drop
        let key ← if noKey then pure .empty else node steps false false
        let value ← if ← accept .value then
            nodeUnless steps false false [.comma, .closeSequence]
          else pure .empty
        return .mapping [(key, value)] :: (← flowItems steps false)
      else if ← accept .closeSequence then return []
      else
        let first ← node steps false false
        return first :: (← flowItems steps false)

/-- The members between braces. -/
def flowMembers : (steps : Nat) → (atStart : Bool) → Compose (List (Node × Node))
  | 0, _ => failure
  | steps + 1, atStart => do
    if ← accept .closeMapping then return []
    else
      if !atStart then expect .comma
      if ← accept .key then
        let key ← nodeUnless steps false false [.value, .comma, .closeMapping]
        let value ← if ← accept .value then
            nodeUnless steps false false [.comma, .closeMapping]
          else pure .empty
        return (key, value) :: (← flowMembers steps false)
      else if ← accept .closeMapping then return []
      else
        let key ← node steps false false
        return (key, .empty) :: (← flowMembers steps false)
end

/-! ## Documents -/

/-- The directives in front of a document: at most one version, which has to be known, and no
handle twice. -/
def directives (versions handles : List String) : List Token → Option (List String × List Token)
  | .directive (.version major minor) :: rest =>
    if versions.isEmpty && major = 1 && (minor = 1 || minor = 2) then
      directives ["1"] handles rest
    else none
  | .directive (.handle name) :: rest =>
    if name ∈ handles then none else directives versions (name :: handles) rest
  | rest => some (handles, rest)

def root (steps : Nat) : Compose Node := do
  if ← accept .documentStart then
    match ← next with
    | none | some .documentStart | some .documentEnd | some (.directive _) => return .empty
    | _ => node steps true false
  else node steps true false

end Compose

/-- The handles that are always declared. -/
def defaultHandles : List String := ["!", "!!"]

/-- The only document that tokens make up, and its anchors. -/
def Node.ofTokens? (tokens : List Token) : Option (Node × Anchors) := do
  if tokens.isEmpty then return (.empty, .none)
  else
    let (handles, rest) ← Compose.directives [] [] tokens
    if rest.length < tokens.length && rest.head? != some .documentStart then none
    else
      let (node, left) ← (Compose.root (4 * tokens.length + 4)).run
        ⟨rest, handles ++ defaultHandles, .none⟩
      if left.tokens.all (· = .documentEnd) then return (node, left.anchors) else none

end Rollback.Yaml
