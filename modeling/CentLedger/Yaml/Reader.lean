import CentLedger.Yaml.Scalar

/-!
# Reading YAML

A document is one node: a scalar, a sequence or a mapping, in block style, where columns say what belongs together, or
in flow style, where brackets do. A node may have a tag, and an anchor by which later nodes refer to it; `resolve`
puts what is referred to in the place of a reference. A text with more than one document is refused, and so are
directives other than that of the version.
-/

namespace CentLedger

/-- A YAML node. -/
inductive Yaml
  | scalar (s : Yaml.Scalar)
  | seq (items : List Yaml)
  | map (entries : List (Yaml × Yaml))
  /-- A node with an anchor. -/
  | anchored (anchor : String) (node : Yaml)
  /-- A reference to the node that last got an anchor. -/
  | reference (anchor : String)
  deriving Repr

namespace Yaml

/-- The node where nothing is written. -/
def nothing : Yaml :=
  scalar { plain := true, text := "" }

/-! ## References -/

/-- The nodes that anchors stand for. -/
abbrev Anchors := List (String × Yaml)

mutual

/-- A node with what its references refer to in their places. A reference to a node from within that node stays. -/
def resolve (known : Anchors) : Yaml → Option (Yaml × Anchors)
  | scalar s => some (scalar s, known)
  | seq items => (resolveItems known items).map fun (items, known) => (seq items, known)
  | map entries => (resolveEntries known entries).map fun (entries, known) => (map entries, known)
  | anchored anchor node =>
    (resolve ((anchor, reference anchor) :: known) node).map fun (node, known) => (node, (anchor, node) :: known)
  | reference anchor => (known.find? fun a => a.1 = anchor).map fun a => (a.2, known)

/-- The items of a sequence, resolved in order. -/
def resolveItems (known : Anchors) : List Yaml → Option (List Yaml × Anchors)
  | [] => some ([], known)
  | item :: rest => do
    let (item, known) ← resolve known item
    let (rest, known) ← resolveItems known rest
    return (item :: rest, known)

/-- The entries of a mapping, resolved in order. -/
def resolveEntries (known : Anchors) : List (Yaml × Yaml) → Option (List (Yaml × Yaml) × Anchors)
  | [] => some ([], known)
  | (key, value) :: rest => do
    let (key, known) ← resolve known key
    let (value, known) ← resolve known value
    let (rest, known) ← resolveEntries known rest
    return ((key, value) :: rest, known)

end

/-! ## Places -/

/-- The place after blanks on the same line. -/
def skipLineBlanks (cur : Cursor) : Cursor :=
  let blanks := cur.rest.takeWhile isBlankChar
  cur.past blanks (cur.rest.drop blanks.length)

/-- The place after the colon that follows a key, if one does. -/
def afterColon (cur : Cursor) : Option Cursor :=
  let cur := skipLineBlanks cur
  if cur.atIndicator ':' then some (cur.past [':'] (cur.rest.drop 1)) else none

/-- The next character is a given one. -/
def Cursor.at (c : Char) (cur : Cursor) : Bool :=
  cur.rest.head? = some c

/-- The place after the next character. -/
def Cursor.step (cur : Cursor) : Cursor :=
  cur.past (cur.rest.take 1) (cur.rest.drop 1)

/-- An entry or an item of a flow collection ends here. -/
def Cursor.atFlowEnd (cur : Cursor) : Bool :=
  cur.at ',' || cur.at ']' || cur.at '\x7d'

/-! ## Anchors and tags -/

/-- What stands before a node: its anchor and its tag. -/
structure Properties where
  anchor : Option String := none
  tag : Option String := none
  deriving DecidableEq

namespace Properties

/-- Nothing stands before a node. -/
def isEmpty (p : Properties) : Bool :=
  p.anchor.isNone && p.tag.isNone

/-- A node with its properties; the tag of a collection means nothing. -/
def attach (p : Properties) (node : Yaml) : Yaml :=
  let node := match node with
    | scalar s => scalar { s with tag := p.tag.or s.tag }
    | node => node
  match p.anchor with
  | some anchor => .anchored anchor node
  | none => node

end Properties

/-- The characters of an anchor. -/
def isAnchorChar (c : Char) : Bool :=
  c.isAlphanum || c = '_' || c = '-'

/-- An anchor, which ends at a gap or at one of a few marks. -/
def readAnchor (cur : Cursor) : Option (String × Cursor) :=
  let name := cur.rest.takeWhile isAnchorChar
  let rest := cur.rest.drop name.length
  let ends := match rest with
    | [] => true
    | c :: _ => atGap rest || "?:,]\x7d%@`".toList.contains c
  if name.isEmpty || !ends then none else some (String.ofList name, cur.past name rest)

/-- The namespace of the tags that two exclamation marks begin. -/
def coreTags : String := "tag:yaml.org,2002:"

/-- The tag of nothing. -/
def nullTag : String := coreTags ++ "null"

/-- The characters of a tag. -/
def isTagChar (flow : Bool) (c : Char) : Bool :=
  c.isAlphanum || "-_;/?:@&=+$.~*'()%!".toList.contains c || (!flow && (c = ',' || c = '[' || c = ']'))

/-- A tag, from its first exclamation mark on: written out between angle brackets, or by its namespace. -/
def readTag (flow : Bool) (cur : Cursor) : Option (String × Cursor) := do
  let (taken, tag) ←
    match cur.rest.drop 1 with
    | '<' :: rest =>
      let name := rest.takeWhile (isTagChar false)
      if name.isEmpty || (rest.drop name.length).head? ≠ some '>' then none
      else some (name.length + 3, String.ofList name)
    | '!' :: rest =>
      let name := rest.takeWhile (isTagChar flow)
      if name.isEmpty || name.contains '!' then none else some (name.length + 2, coreTags ++ String.ofList name)
    | rest =>
      let name := rest.takeWhile (isTagChar flow)
      if name.contains '!' then none else some (name.length + 1, "!" ++ String.ofList name)
  let rest := cur.rest.drop taken
  if atGap rest || (flow && rest.head? = some ',') then some (tag, cur.past (cur.rest.take taken) rest) else none

/-- The anchor and the tag that stand here, in either order. -/
def readProperties (flow : Bool) (cur : Cursor) : Option (Properties × Cursor) := do
  if cur.at '&' then
    let (anchor, next) ← readAnchor cur.step
    let next := skipLineBlanks next
    if next.at '!' then
      let (tag, next) ← readTag flow next
      return (⟨anchor, tag⟩, next)
    else return (⟨anchor, none⟩, next)
  else if cur.at '!' then
    let (tag, next) ← readTag flow cur
    let next := skipLineBlanks next
    if next.at '&' then
      let (anchor, next) ← readAnchor next.step
      return (⟨anchor, tag⟩, next)
    else return (⟨none, tag⟩, next)
  else return ({}, cur)

/-! ## Scalars and references -/

/-- A node without parts, whether it ended on the line where it began, and the place after it. -/
structure ReadLeaf where
  node : Yaml
  oneLine : Bool
  next : Cursor

/-- The leaf of a scalar that was read. -/
def ReadScalar.leaf (r : ReadScalar) : ReadLeaf :=
  ⟨.scalar r.scalar, r.oneLine, r.next⟩

/-- A colon that stands right after a plain scalar in a flow collection, and right before a mark. -/
def clashes (flow : Bool) (cur : Cursor) : Bool :=
  flow && cur.at ':' && clashesWithColon (cur.rest.drop 1)

/-- A reference, or a scalar in quotes or a plain one; further lines of a plain one stand at or right of a column. -/
def readLeaf (flow : Bool) (indent : Nat) (cur : Cursor) : Option ReadLeaf :=
  match cur.rest with
  | [] => none
  | c :: rest =>
    if c = '*' then (readAnchor cur.step).map fun (anchor, next) => ⟨.reference anchor, true, next⟩
    else if c = '"' || c = '\'' then (readQuoted cur).map (·.leaf)
    else if startsPlain flow c rest then
      let r := readPlain flow indent cur
      if clashes flow r.next then none else some r.leaf
    else none

/-! ## Flow style -/

/-- The place after the question mark that may stand before a key. -/
def skipKeyMark (cur : Cursor) : Cursor :=
  if cur.at '?' then cur.step.skip true else cur

mutual

/-- A node in flow style. -/
def readFlow : (fuel : Nat) → Cursor → Option (Yaml × Cursor)
  | 0, _ => none
  | fuel + 1, cur => do
    let (properties, cur) ← readProperties true cur
    let cur := if properties.isEmpty then cur else cur.skip true
    let (node, next) ←
      if cur.at '[' then (readFlowItems fuel cur.step).map fun (items, next) => (seq items, next)
      else if cur.at '\x7b' then (readFlowEntries fuel cur.step).map fun (entries, next) => (map entries, next)
      else if !properties.isEmpty && (cur.atFlowEnd || cur.at ':') then some (nothing, cur)
      else (readLeaf true 0 cur).map fun r => (r.node, r.next)
    return (properties.attach node, next)

/-- A node in flow style, or nothing before the end of an entry. -/
def readFlowValue : (fuel : Nat) → Cursor → Option (Yaml × Cursor)
  | 0, _ => none
  | fuel + 1, cur =>
    let cur := cur.skip true
    if cur.atFlowEnd then some (nothing, cur) else readFlow fuel cur

/-- The items of a sequence up to its bracket; an item may be a single entry of a mapping. -/
def readFlowItems : (fuel : Nat) → Cursor → Option (List Yaml × Cursor)
  | 0, _ => none
  | fuel + 1, cur =>
    let cur := cur.skip true
    if cur.at ']' then some ([], cur.step)
    else do
      let (item, cur) ← readFlow fuel (skipKeyMark cur)
      let cur := cur.skip true
      let (item, cur) ←
        if cur.at ':' then (readFlowValue fuel cur.step).map fun (v, next) => (map [(item, v)], next)
        else some (item, cur)
      let cur := cur.skip true
      if cur.at ']' then some ([item], cur.step)
      else if cur.at ',' then (readFlowItems fuel cur.step).map fun (items, next) => (item :: items, next)
      else none

/-- The entries of a mapping up to its brace. -/
def readFlowEntries : (fuel : Nat) → Cursor → Option (List (Yaml × Yaml) × Cursor)
  | 0, _ => none
  | fuel + 1, cur =>
    let cur := cur.skip true
    if cur.at '\x7d' then some ([], cur.step)
    else do
      let (key, cur) ← readFlow fuel (skipKeyMark cur)
      let cur := cur.skip true
      let (value, cur) ← if cur.at ':' then readFlowValue fuel cur.step else some (nothing, cur)
      let cur := cur.skip true
      if cur.at '\x7d' then some ([(key, value)], cur.step)
      else if cur.at ',' then (readFlowEntries fuel cur.step).map fun (es, next) => ((key, value) :: es, next)
      else none

end

/-! ## Block style -/

/-- Nothing more belongs to a block that stands at or right of a column. -/
def blockEnds (column : Nat) (cur : Cursor) : Bool :=
  cur.atEnd || cur.atBoundary || (cur.fresh && cur.column < column)

/-- The first hyphen of a sequence that stands in the column of the key before it. -/
def atSequenceOf (column : Nat) (cur : Cursor) : Bool :=
  cur.fresh && cur.column = column && cur.atIndicator '-' && !cur.atBoundary

mutual

/-- A node that stands at or right of a column. Where `keys` holds, it may begin a mapping or a sequence in block
style. -/
def readBlockNode : (fuel : Nat) → (indent : Nat) → (keys : Bool) → Cursor → Option (Yaml × Cursor)
  | 0, _, _, _ => none
  | fuel + 1, indent, keys, cur =>
    if blockEnds indent cur then some (nothing, cur)
    else do
      let (properties, start) ← readProperties false cur
      if properties.isEmpty then readBlockContent fuel indent keys cur
      else
        let next := start.skip false
        if next.atEnd || next.fresh then
          (readBlockNode fuel indent true next).map fun (node, last) => (properties.attach node, last)
        else if next.at '[' || next.at '\x7b' || next.at '|' || next.at '>' then
          (readBlockContent fuel indent false next).map fun (node, last) => (properties.attach node, last)
        else do
          let r ← readLeaf false indent next
          match afterColon r.next with
          | none => return (properties.attach r.node, r.next)
          | some _ =>
            if keys then (readBlockEntries fuel cur.column cur).map fun (entries, last) => (map entries, last) else none

/-- A node without properties. -/
def readBlockContent : (fuel : Nat) → (indent : Nat) → (keys : Bool) → Cursor → Option (Yaml × Cursor)
  | 0, _, _, _ => none
  | fuel + 1, indent, keys, cur =>
    if cur.atIndicator '-' then
      if keys then (readBlockItems fuel cur.column cur).map fun (items, next) => (seq items, next) else none
    else if cur.atIndicator '?' then
      if keys then (readBlockEntries fuel cur.column cur).map fun (entries, next) => (map entries, next) else none
    else if cur.at '[' || cur.at '\x7b' then do
      let (node, next) ← readFlow (4 * cur.rest.length) cur
      if (afterColon next).isSome then none else return (node, next)
    else if cur.at '|' || cur.at '>' then (readBlock indent cur).map fun r => (.scalar r.scalar, r.next)
    else do
      let r ← readLeaf false indent cur
      match afterColon r.next with
      | none => return (r.node, r.next)
      | some _ =>
        if keys then (readBlockEntries fuel cur.column cur).map fun (entries, next) => (map entries, next) else none

/-- The items of a sequence in a column, from the hyphen of the first on. -/
def readBlockItems : (fuel : Nat) → (column : Nat) → Cursor → Option (List Yaml × Cursor)
  | 0, _, _ => none
  | fuel + 1, column, cur => do
    let (item, next) ← readBlockNode fuel (column + 1) true (cur.step.skip false)
    let next := next.skip false
    if blockEnds column next then some ([item], next)
    else if next.fresh && next.column = column then
      if next.atIndicator '-' then (readBlockItems fuel column next).map fun (items, last) => (item :: items, last)
      else some ([item], next)
    else none

/-- What stands in an entry, after a mark in a column. A sequence may stand in the same column. -/
def readBlockValue : (fuel : Nat) → (column : Nat) → (keys : Bool) → Cursor → Option (Yaml × Cursor)
  | 0, _, _, _ => none
  | fuel + 1, column, keys, cur =>
    let cur := cur.skip false
    if atSequenceOf column cur then
      (readBlockItems fuel column cur).map fun (items, next) => (seq items, next)
    else do
      let (properties, start) ← readProperties false cur
      let next := start.skip false
      if !properties.isEmpty && atSequenceOf column next then
        (readBlockItems fuel column next).map fun (items, last) => (properties.attach (seq items), last)
      else readBlockNode fuel (column + 1) (keys || cur.fresh) cur

/-- One entry of a mapping in a column: its key is a leaf on one line, or any node after a question mark. -/
def readBlockEntry : (fuel : Nat) → (column : Nat) → Cursor → Option ((Yaml × Yaml) × Cursor)
  | 0, _, _ => none
  | fuel + 1, column, cur =>
    if cur.atIndicator '?' then do
      let (key, next) ← readBlockValue fuel column true cur.step
      let next := next.skip false
      if next.fresh && next.column = column && next.atIndicator ':' then
        let (value, last) ← readBlockValue fuel column true next.step
        return ((key, value), last)
      else return ((key, nothing), next)
    else do
      let (properties, start) ← readProperties false cur
      let r ← readLeaf false (column + 1) start
      let after ← afterColon r.next
      if r.oneLine then
        let (value, next) ← readBlockValue fuel column false after
        return ((properties.attach r.node, value), next)
      else none

/-- The entries of a mapping in a column, from the key of the first on. -/
def readBlockEntries : (fuel : Nat) → (column : Nat) → Cursor → Option (List (Yaml × Yaml) × Cursor)
  | 0, _, _ => none
  | fuel + 1, column, cur => do
    let (entry, next) ← readBlockEntry fuel column cur
    let next := next.skip false
    if blockEnds column next then some ([entry], next)
    else if next.fresh && next.column = column then
      (readBlockEntries fuel column next).map fun (entries, last) => (entry :: entries, last)
    else none

end

/-! ## Documents -/

/-- The place after three equal marks. -/
def Cursor.pastMark (cur : Cursor) : Cursor :=
  cur.past (cur.rest.take 3) (cur.rest.drop 3)

/-- Only blanks, comments and marks of the end of the document follow. -/
def endsDocument : (fuel : Nat) → Cursor → Bool
  | 0, _ => false
  | fuel + 1, cur =>
    let cur := cur.skip false
    cur.atEnd || (cur.atMark '.' && endsDocument fuel cur.pastMark)

/-- The directives of a version that can be read. -/
def versionDirectives : List String :=
  ["%YAML 1.1", "%YAML 1.2"]

/-- The place where the node of the first document begins: after a directive and the mark of its beginning, if they are
there. -/
def documentStart (cur : Cursor) : Option Cursor :=
  let cur := cur.skip false
  if cur.at '%' then
    let line := cur.rest.takeWhile (· ≠ '\n')
    let next := (cur.past line (dropLine cur.rest)).skip false
    if versionDirectives.contains (String.ofList line) && next.atMark '-' then some (next.pastMark.skip false) else none
  else if cur.atMark '-' then some (cur.pastMark.skip false)
  else if cur.atMark '.' then none
  else some cur

/-- The node of the only document of a text. -/
def parse (s : String) : Option Yaml :=
  let text := unifyBreaks (dropByteOrderMark s.toList)
  if !text.all isAllowed then none
  else do
    let start ← documentStart (.start text)
    let (node, next) ← readBlockNode (5 * text.length + 8) 0 start.fresh start
    if endsDocument (text.length + 1) next then (resolve [] node).map (·.1) else none

end Yaml

end CentLedger
