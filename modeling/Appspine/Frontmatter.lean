import Appspine.JsonCanonical
import Appspine.JsNumerals

/-!
# The frontmatter of contracts

`readFrontmatter` and the small YAML reader under it. Nodes that are still open are held by the
path of keys that leads to them.
-/
namespace Appspine.Frontmatter
open JsText JsonText InsertionMap

variable {N : Type}

section Scalars

def isQuote (u : CodeUnit) : Bool := decide (u = unit '"') || decide (u = unit '\'')

/-- `/^-?\d+(\.\d+)?$/`. -/
def isNumeral (value : JsString) : Bool :=
  let unsigned := if value.head? = some (unit '-') then value.tail else value
  match breakAt (unit '.') unsigned with
  | (whole, none) => decide (whole ≠ []) && whole.all isDigit
  | (whole, some fraction) =>
    decide (whole ≠ []) && whole.all isDigit && decide (fraction ≠ []) && fraction.all isDigit

def isEnclosed (opening closing : CodeUnit) (value : JsString) : Bool :=
  decide (value.head? = some opening) && decide (value.getLast? = some closing)

/-- `value.slice(1, -1)`. -/
def inner (value : JsString) : JsString := value.tail.dropLast

/-- `parseScalar`, with at most `depth` lists inside each other. `Number` is handed in. -/
def scalarOf (toNumber : JsString → N) : ℕ → JsString → Json N
  | depth, value =>
    if isEnclosed (unit '"') (unit '"') value || isEnclosed (unit '\'') (unit '\'') value then
      .str (inner value)
    else if value = js "true" then .bool true
    else if value = js "false" then .bool false
    else if value = js "null" then .null
    else if isNumeral value then .num (toNumber value)
    else
      match depth with
      | 0 => .str value
      | depth + 1 =>
        if isEnclosed (unit '[') (unit ']') value then
          .arr ((((inner value).splitOn (unit ',')).map trim).filter (fun item => decide (item ≠ []))
            |>.map (scalarOf toNumber depth))
        else .str value

/-- Items are shorter than the list that they stand in. -/
def parseScalar (toNumber : JsString → N) (value : JsString) : Json N :=
  scalarOf toNumber value.length value

end Scalars

section Lines

def trimStart (s : JsString) : JsString := s.dropWhile isWhiteSpace

/-- One `\r` at the end belongs to the line break. -/
def withoutReturn (line : JsString) : JsString :=
  if line.getLast? = some (unit '\r') then line.dropLast else line

/-- `content.split(/\r?\n/u)`. -/
def splitLines (content : JsString) : List JsString :=
  let pieces := content.splitOn (unit '\n')
  pieces.dropLast.map withoutReturn ++ pieces.getLast?.toList

/-- Lines that are skipped: white space and comments. -/
def isFiller (line : JsString) : Bool := decide (trim line = []) || startsWith (trim line) (js "#")

def isItem (line : JsString) : Bool := startsWith (trim line) (js "- ")

def indentOf (line : JsString) : ℕ := line.length - (trimStart line).length

/-- `key.replace(/^['"]|['"]$/gu, '')`. -/
def unquote (key : JsString) : JsString :=
  let key := if key.head?.any isQuote then key.tail else key
  if key.getLast?.any isQuote then key.dropLast else key

end Lines

section Reading

/-- Changes the node that a path of keys leads to. -/
def updateAt (f : Json N → Json N) : List JsString → Json N → Json N
  | [], node => f node
  | key :: path, .obj members => .obj (modify members key (updateAt f path))
  | _, node => node

/-- `parent[key] = value`. -/
def assign (key : JsString) (value : Json N) : Json N → Json N
  | .obj members => .obj (set members key value)
  | node => node

/-- `if (Array.isArray(parent)) parent.push(item)`. -/
def pushItem (item : Json N) : Json N → Json N
  | .arr items => .arr (items ++ [item])
  | node => node

/-- An entry of the stack; the one at the bottom, for the root, is left out. -/
structure Frame where
  indent : ℕ
  path : List JsString

structure Reader (N : Type) where
  root : Json N
  stack : List Frame

/-- The frames that stay open at this indentation. -/
def openAt (indent : ℕ) (stack : List Frame) : List Frame :=
  stack.dropWhile fun frame => decide (indent ≤ frame.indent)

def parentPath (stack : List Frame) : List JsString := (stack.head?.map Frame.path).getD []

/-- What an entry without a value holds, by the line that follows it. -/
def emptyNode (rest : List JsString) : Json N :=
  if (rest.find? fun line => !isFiller line).any isItem then .arr [] else .obj []

variable (toNumber : JsString → N)

/-- One line, before the lines `rest`. -/
def readLine (reader : Reader N) (line : JsString) (rest : List JsString) : Reader N :=
  if isFiller line then reader
  else
    let stack := openAt (indentOf line) reader.stack
    let path := parentPath stack
    if isItem line then
      { root := updateAt (pushItem (parseScalar toNumber ((trim line).drop 2))) path reader.root
        stack := stack }
    else
      match breakAt (unit ':') (trim line) with
      | (_, none) => { reader with stack := stack }
      | (key, some value) =>
        let key := unquote (trim key)
        let value := trim value
        if value = [] then
          { root := updateAt (assign key (emptyNode rest)) path reader.root
            stack := ⟨indentOf line, path ++ [key]⟩ :: stack }
        else
          { root := updateAt (assign key (parseScalar toNumber value)) path reader.root
            stack := stack }

def readLines (reader : Reader N) : List JsString → Reader N
  | [] => reader
  | line :: rest => readLines (readLine toNumber reader line rest) rest

/-- `parseYaml`. Its case for `[]` is the one of `parseScalar`. -/
def parseYaml (content : JsString) : Json N :=
  (readLines toNumber ⟨.obj [], []⟩ (splitLines content)).root

def beforeFence : JsString → Option JsString
  | [] => none
  | u :: us =>
    if startsWith (u :: us) (js "\n---") || startsWith (u :: us) (js "\r\n---") then some []
    else (beforeFence us).map (u :: ·)

/-- The text between a first line `---` and the first line break that `---` follows. -/
def fenced (content : JsString) : Option JsString :=
  if startsWith content (js "---\n") then beforeFence (content.drop 4)
  else if startsWith content (js "---\r\n") then beforeFence (content.drop 5)
  else none

def readFrontmatter (content : JsString) : Json N :=
  match fenced content with
  | none => .obj []
  | some yaml => parseYaml toNumber yaml

end Reading

section UniqueKeys

variable {toNumber : JsString → N} {node value : Json N} {key : JsString}

end UniqueKeys

end Appspine.Frontmatter
