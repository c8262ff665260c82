import WallPanel.Data.Yaml.Quotes

/-!
# Labels

What a node can be marked with: an anchor by which others refer to it, and a tag for what it is. A
directive before a document gives the version of the format, or a short handle for tags.

* `Cursor.anchorName`: the name after an ampersand or an asterisk.
* `Cursor.tag`: a tag, by its handle and the rest of its address.
* `Cursor.directive`: a directive.
-/

namespace WallPanel.Yaml

/-- A tag as it is written. One without a handle is its address. -/
structure Tag where
  handle : Option String
  address : String
deriving DecidableEq, Repr

/-- What a line before a document says. -/
inductive Directive where
  | version (major minor : Nat)
  | handle (handle address : String)
  | other
deriving DecidableEq, Repr

/-- The characters that may follow the name of an anchor, blanks apart. -/
def afterAnchor : List Char :=
  ['?', ':', ',', ']', '\x7d', '%', '@', '\x60']

/-- Whether a character may stand in an address. -/
def isAddressCharacter (c : Char) : Bool :=
  c.isAlphanum || "-;/?:@&=+$,_.!~*'()[]%".toList.contains c

namespace Cursor

/-- A name, which has at least one character. -/
def name (activity : Activity) (start : Mark) (c : Cursor) : Except Flaw (String × Cursor) :=
  let (cs, after) := c.span isNameCharacter
  if cs.isEmpty then .error (.scan activity start (.expected .name c.peek) c.mark)
  else .ok (String.ofList cs, after)

/-- The name after an ampersand or an asterisk, and what is left. -/
def anchorName (activity : Activity) (c : Cursor) : Except Flaw (String × Cursor) := do
  let (name, after) ← c.advance.name activity c.mark
  if endsWord after.peek || after.peek.any afterAnchor.contains then return (name, after)
  else .error (.scan activity c.mark (.expected .name after.peek) after.mark)

/-! ## Addresses -/

/-- The bytes of a row of escapes, each two hexadecimal digits after a percent sign. -/
def addressBytes (activity : Activity) (start : Mark) : Nat → Cursor →
    Except Flaw (List Nat × Cursor)
  | 0, c => .ok ([], c)
  | fuel + 1, c =>
    if c.peek = some '%' then
      let c := c.advance
      match [c.ahead 0, c.ahead 1].find? fun d => !d.any fun d => (hexValue? d).isSome with
      | some found => .error (.scan activity start (.expected .addressDigits found) c.mark)
      | none => do
        let (bytes, after) ← addressBytes activity start fuel (c.advanceBy 2)
        return (hexNumber (c.rest.take 2) :: bytes, after)
    else .ok ([], c)

/-- The pieces of an address, with its escapes resolved. -/
def addressPieces (activity : Activity) (start : Mark) : Nat → Cursor →
    Except Flaw (List Char × Cursor)
  | 0, c => .ok ([], c)
  | fuel + 1, c => do
    let (cs, here) := c.span fun ch => isAddressCharacter ch && ch ≠ '%'
    if here.peek = some '%' then
      let (bytes, after) ← here.addressBytes activity start here.fuel
      match Utf8.decode bytes with
      | .error fault => .error (.scan activity start (.badAddress fault) here.mark)
      | .ok text =>
        let (rest, after) ← addressPieces activity start fuel after
        return (cs ++ text ++ rest, after)
    else return (cs, here)

/-- An address, which is not empty. -/
def address (activity emptyActivity : Activity) (start : Mark) (c : Cursor) :
    Except Flaw (String × Cursor) := do
  let (cs, after) ← c.addressPieces activity start c.fuel
  if after.mark.index = c.mark.index then
    .error (.scan emptyActivity start (.expected .address c.peek) c.mark)
  else return (String.ofList cs, after)

/-! ## Tags -/

/-- A handle for tags: a name between exclamation marks, or a single one. -/
def handle (activity : Activity) (start : Mark) (c : Cursor) : Except Flaw (String × Cursor) :=
  if c.peek ≠ some '!' then .error (.scan activity start (.expected .exclamation c.peek) c.mark)
  else if c.ahead 1 = some ' ' then .ok ("!", c.advance)
  else
    let (cs, after) := c.advance.span isNameCharacter
    if after.peek = some '!' then .ok (String.ofList ('!' :: cs ++ ['!']), after.advance)
    else .error (.scan activity start (.expected .exclamation after.peek) after.mark)

/-- The handle and the address of a tag that starts here. -/
def tagParts (c : Cursor) : Except Flaw (Tag × Cursor) := do
  let start := c.mark
  if c.ahead 1 = some '<' then
    let (address, after) ← (c.advanceBy 2).address .tag .tagAddress start
    if after.peek = some '>' then return (⟨none, address⟩, after.advance)
    else .error (.scan .tagAddress start (.expected .angle after.peek) after.mark)
  else if endsWord (c.ahead 1) then return (⟨none, "!"⟩, c.advance)
  else
    let word := c.rest.tail.takeWhile fun ch => !endsPart (some ch)
    let (handle, after) ← if word.contains '!' then c.handle .tag start else pure ("!", c.advance)
    let (address, after) ← after.address .tag .tagAddress start
    return (⟨some handle, address⟩, after)

/-- The tag that starts here, and what is left. -/
def tag (c : Cursor) : Except Flaw (Tag × Cursor) := do
  let (tag, after) ← c.tagParts
  if endsPart after.peek then return (tag, after)
  else .error (.scan .tag c.mark (.expected .space after.peek) after.mark)

/-! ## Directives -/

/-- A part of a version. -/
def versionNumber (start : Mark) (c : Cursor) : Except Flaw (Nat × Cursor) :=
  let (ds, after) := c.span Char.isDigit
  if ds.isEmpty then .error (.scan .directive start (.expected .digit c.peek) c.mark)
  else if Fault.digitLimit < ds.length then .error (.value (.tooManyDigits ds.length))
  else .ok (ds.foldl (fun n d => 10 * n + (d.toNat - 48)) 0, after)

/-- The version that a directive gives. -/
def version (start : Mark) (c : Cursor) : Except Flaw (Directive × Cursor) := do
  let (major, c) ← c.skipSpaces.versionNumber start
  if c.peek ≠ some '.' then
    throw (.scan .directive start (.expected .digitOrPoint c.peek) c.mark)
  let (minor, c) ← c.advance.versionNumber start
  if endsPart c.peek then return (.version major minor, c)
  else .error (.scan .directive start (.expected .digitOrSpace c.peek) c.mark)

/-- The handle that a directive gives. -/
def handleDirective (start : Mark) (c : Cursor) : Except Flaw (Directive × Cursor) := do
  let (handle, c) ← c.skipSpaces.handle .directive start
  if c.peek ≠ some ' ' then throw (.scan .directive start (.expected .space c.peek) c.mark)
  let (address, c) ← c.skipSpaces.address .directive .directiveAddress start
  if endsPart c.peek then return (.handle handle address, c)
  else .error (.scan .directive start (.expected .space c.peek) c.mark)

/-- The directive that starts here, and what is left after its line. -/
def directive (c : Cursor) : Except Flaw (Directive × Cursor) := do
  let start := c.mark
  let (name, c) ← c.advance.name .directive start
  if !endsPart c.peek then throw (.scan .directive start (.expected .name c.peek) c.mark)
  let (d, c) ← if name = "YAML" then c.version start
    else if name = "TAG" then c.handleDirective start
    else pure (Directive.other, c.skip (!isBreak ·))
  return (d, ← c.endLine .directive start)

end Cursor

end WallPanel.Yaml
