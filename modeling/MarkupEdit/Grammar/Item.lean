import MarkupEdit.Grammar.Production
import MarkupEdit.Grammar.TerminalSet

/-!
# Items

An item is a production that has been read up to some symbol. Two of them are one as long as what
is left to read, and the fields and names of what was read, are the same.

* `Items`: the items of a grammar, and which symbols may come first in a part.
* `Compiled.items`: their computation.
-/

namespace MarkupEdit.Grammar

/-- A production that has been read up to a symbol. -/
structure Item where
  part : Nat
  /-- The number of symbols that have been read. -/
  dot : Nat
  length : Nat
  favour : Int
  /-- The strength and the side of the last symbol that was read. -/
  strength : Strength
  side : Option Side
  /-- The symbol to read next. -/
  next : Option Nat
  /-- The item behind that symbol. -/
  after : Nat
  /-- A production that has been read so far. -/
  production : Nat
  deriving Inhabited

/-- Whether an item comes before another one: those that have read less, then by their parts. -/
def Item.le (a b : Item) : Bool :=
  compareLex (compareOn (·.dot)) (compareLex (compareOn (·.part))
    (compareLex (compareOn (·.favour)) (compareOn (·.length)))) a b |>.isLE

/-- What may follow a part at the left edge of another one: these terminals, and if it reaches up to
the right edge, what may follow that one too. -/
structure Follow where
  terminals : TerminalSet
  reaches : Bool
  deriving DecidableEq, Inhabited

/-- What follows a part at the left edge of a part that `outer` follows. -/
def Follow.within (follow outer : Follow) : Follow := if follow.reaches then outer else follow

def Follow.join (a b : Follow) : Follow := ⟨a.terminals.union b.terminals, a.reaches || b.reaches⟩

namespace Compiled

/-- The number of terminals and parts. -/
def symbolCount (c : Compiled) : Nat := c.terminals.size + c.parts.size

/-- The part that a symbol is. -/
def part? (c : Compiled) (symbol : Nat) : Option Part :=
  if symbol < c.terminals.size then none else c.parts[symbol - c.terminals.size]?

/-- Whether a symbol is a part that makes no node of its own. -/
def isHiddenPart (c : Compiled) (symbol : Nat) : Bool :=
  (c.part? symbol).any fun p => !p.isVisible

/-- Whether a symbol is a repetition. -/
def isRepetition (c : Compiled) (symbol : Nat) : Bool := (c.part? symbol).any (·.isRepetition)

/-! ## Fields -/

/-- The hidden parts in which a field is named, once more around those in `known`. -/
def fieldPartsStep (c : Compiled) (known : Std.HashSet Nat) : Std.HashSet Nat :=
  c.productions.foldl
    (fun known p =>
      if p.steps.any fun s => s.field.isSome || (s.title.isNone && known.contains s.symbol) then
        if c.isHiddenPart p.part then known.insert p.part else known
      else known)
    known

/-- The hidden parts in which a field is named, directly or within others of them. -/
def fieldParts (c : Compiled) : Nat → Std.HashSet Nat → Std.HashSet Nat
  | 0, known => known
  | fuel + 1, known =>
    let more := c.fieldPartsStep known
    if more.size == known.size then known else c.fieldParts fuel more

/-! ## Items -/

/-- What tells an item from others. -/
structure ItemKey where
  part : Nat
  dot : Nat
  length : Nat
  favour : Int
  strength : Strength
  side : Option Side
  /-- The names and fields of what was read; the symbols too, once fields came from within. -/
  before : List (Option Title × Option String × Nat)
  after : List Step
  deriving DecidableEq, Hashable

/-- The key of the item of `p` that has read the symbols of `read`, given last first. The symbols
count once `marked`. -/
def itemKey (p : Production) (marked : Bool) (read after : List Step) : ItemKey :=
  { part := p.part
    dot := read.length
    length := read.length + after.length
    favour := p.favour
    strength := (read.head?.map (·.strength)).getD .plain
    side := read.head?.bind (·.side)
    before := read.map fun s => (s.title, s.field, if marked then s.symbol else 0)
    after }

/-- The keys of the items of a production, those of later items first. Symbols count behind a part
with fields. -/
def itemKeys (fieldParts : Std.HashSet Nat) (p : Production) : List ItemKey :=
  go [] false [] p.steps
where
  go (read : List Step) (marked : Bool) (keys : List ItemKey) : List Step → List ItemKey
    | [] => itemKey p marked read [] :: keys
    | s :: rest =>
      go (s :: read) (marked || fieldParts.contains s.symbol)
        (itemKey p marked read (s :: rest) :: keys) rest

/-- The items that were found, by their keys; the item behind the next symbol by its number. -/
structure Found where
  items : Array Item
  numbers : Std.HashMap ItemKey Nat

/-- Adds the item of a key unless it is there, and answers its number. -/
def Found.add (found : Found) (production after : Nat) (key : ItemKey) : Found × Nat :=
  match found with
  | ⟨items, numbers⟩ =>
    match numbers[key]? with
    | some number => (⟨items, numbers⟩, number)
    | none =>
      let number := items.size
      let item : Item :=
        { part := key.part, dot := key.dot, length := key.length, favour := key.favour
          strength := key.strength, side := key.side, next := key.after.head?.map (·.symbol)
          after, production }
      (⟨items.push item, numbers.insert key number⟩, number)

/-- Adds the items of a production. -/
def Found.addProduction (fieldParts : Std.HashSet Nat) (found : Found)
    (production : Nat × Production) : Found :=
  ((itemKeys fieldParts production.2).foldl
    (fun (found, after) key => found.add production.1 after key) (found, 0)).1

/-- The items in their order, which the numbers of the next items follow. -/
def Found.sorted (found : Found) : Array Item :=
  let order := (found.items.toList.zipIdx.mergeSort (fun a b => a.1.le b.1)).toArray
  let places := order.zipIdx.foldl (fun (places : Array Nat) ((_, old), new) => places.set! old new)
    (.replicate found.items.size 0)
  order.map fun (item, _) => { item with after := places.getD item.after 0 }

/-! ## First symbols -/

/-- Adds to the terminals that a part may begin with those of the first symbols of its
productions. -/
def firstStep (leads : List (Nat × Nat)) (first : Array TerminalSet) : Array TerminalSet :=
  leads.foldl (fun first (part, symbol) =>
    first.set! part ((first.getD part .empty).union (first.getD symbol .empty))) first

/-- The terminals that each symbol may begin with, by steps as long as one adds something. -/
def firstTerminals (leads : List (Nat × Nat)) : Nat → Array TerminalSet → Array TerminalSet
  | 0, first => first
  | fuel + 1, first =>
    let more := firstStep leads first
    if more == first then first else firstTerminals leads fuel more

/-! ## Left edges -/

/-- A part that another one may begin with, and what follows it there. -/
structure Edge where
  part : Nat
  follow : Follow

/-- What a part may begin with: the parts at the start of its productions. -/
def edgesOf (count : Nat) (first : Array TerminalSet) (steps : List (List Step)) : List Edge :=
  (steps.foldl (fun (seen, edges) steps =>
    match steps with
    | [] => (seen, edges)
    | s :: rest =>
      let second := rest.head?.map (·.symbol)
      if s.symbol < count || seen.contains (s.symbol, second) then (seen, edges)
      else
        (seen.insert (s.symbol, second),
          ⟨s.symbol - count,
            match second with
            | none => ⟨.empty, true⟩
            | some symbol => ⟨first.getD symbol .empty, false⟩⟩ :: edges))
    ((∅ : Std.HashSet (Nat × Option Nat)), [])).2

/-- What may follow the parts at the left edge of a part: from the parts in `pending`, what is known
is carried on to the parts that they begin with. -/
def spread (edges : Array (List Edge)) :
    Nat → List Nat → Array (Option Follow) → Array (Option Follow)
  | 0, _, known => known
  | _, [], known => known
  | fuel + 1, part :: pending, known =>
    match known.getD part none with
    | none => spread edges fuel pending known
    | some outer =>
      let (pending, known) := (edges.getD part []).foldl
        (fun (pending, known) edge =>
          let before := known.getD edge.part none
          let follow := edge.follow.within outer
          let joined := (before.map (·.join follow)).getD follow
          if before == some joined then (pending, known)
          else (edge.part :: pending, known.set! edge.part (some joined)))
        (pending, known)
      spread edges fuel pending known

end Compiled

/-- The items of a grammar, and what it takes to find those that may come next. -/
structure Items where
  grammar : Compiled
  /-- A part around the whole text. -/
  start : Nat
  /-- The item of `start` of which nothing has been read. -/
  startItem : Nat
  items : Array Item
  /-- All productions, that of `start` included. -/
  productions : Array Production
  /-- The terminals that a symbol may begin with. -/
  first : Array TerminalSet
  /-- For each symbol, the parts that may begin with it and the items behind it. -/
  openings : Array (List (Nat × Nat))
  /-- The parts that may be empty, and their items. -/
  blanks : List (Nat × Nat)
  /-- For each part, what may follow the parts at its left edge. -/
  edges : Array (Array (Option Follow))

namespace Items

/-- The number of steps that the search for left edges may take. -/
def maxSpread : Nat := 1000000

/-- The items of a grammar. -/
def ofCompiled (c : Compiled) : Items :=
  let count := c.terminals.size
  let start := c.symbolCount
  let productions := c.productions.push
    { part := start, steps := [⟨count, .plain, none, none, none⟩], favour := 0 }
  let fieldParts := c.fieldParts c.parts.size ∅
  let found := (productions.toList.zipIdx.map fun (p, n) => (n, p)).foldl
    (Compiled.Found.addProduction fieldParts) ⟨#[], ∅⟩
  let items := found.sorted
  let leads := distinct (productions.toList.filterMap fun p =>
    p.steps.head?.map fun s => (p.part, s.symbol))
  let first := Compiled.firstTerminals leads start
    ((Array.range (start + 1)).map fun symbol =>
      if symbol < count then .singleton symbol else .empty)
  let stepsOf := productions.foldl
    (fun (steps : Array (List (List Step))) p => steps.modify (p.part - count) (p.steps :: ·))
    (.replicate (c.parts.size + 1) [])
  let edges := stepsOf.map (Compiled.edgesOf count first)
  let opening := items.toList.filter (·.dot == 0)
  { grammar := c
    start
    startItem := (items.toList.findIdx? fun i => i.part == start && i.dot == 0).getD 0
    items
    productions
    first
    openings := opening.foldl
      (fun (openings : Array (List (Nat × Nat))) i =>
        match i.next with
        | some symbol => openings.modify symbol ((i.part - count, i.after) :: ·)
        | none => openings)
      (.replicate (start + 1) [])
    blanks := (items.toList.zipIdx.filter fun (i, _) => i.length == 0).map fun (i, n) =>
      (i.part - count, n)
    edges := (Array.range (c.parts.size + 1)).map fun part =>
      Compiled.spread edges maxSpread [part]
        ((Array.replicate (c.parts.size + 1) none).set! part (some ⟨.empty, true⟩)) }

end Items

end MarkupEdit.Grammar
