import MarkupEdit.Grammar.Item
import MarkupEdit.Text.Point

/-!
# Subtrees

What has been read so far is a row of subtrees: lexemes, productions over others, and stretches of
text that fit nothing. Each knows where it stands, what its errors cost and how many of its nodes
show.

* `Input`: a text with its places.
* `Subtree`: a piece of a reading.
* `Items.branch`: a subtree over others.
* `Items.isBetter`: which of two subtrees of one stretch of text is kept.
-/

namespace MarkupEdit.Grammar

open MarkupEdit.Text

/-- A text, and what stands in front of and behind each of its places. -/
structure Input where
  /-- The text from each place on. -/
  rests : Array (List Char)
  /-- The bytes in front of each place. -/
  bytes : Array Nat
  /-- The line breaks in front of each place. -/
  rows : Array Nat

namespace Input

def ofText (text : List Char) : Input :=
  go #[] #[] #[] .start text
where
  go (rests : Array (List Char)) (bytes rows : Array Nat) (p : Point) : List Char → Input
    | [] => ⟨rests.push [], bytes.push p.byte, rows.push p.row⟩
    | c :: s => go (rests.push (c :: s)) (bytes.push p.byte) (rows.push p.row) (p.next c) s

def rest (input : Input) (place : Nat) : List Char := input.rests.getD place []

/-- The number of characters. -/
def size (input : Input) : Nat := input.rests.size - 1

/-- The bytes between two places. -/
def bytesBetween (input : Input) (start stop : Nat) : Nat :=
  input.bytes.getD stop 0 - input.bytes.getD start 0

/-- The line breaks between two places. -/
def rowsBetween (input : Input) (start stop : Nat) : Nat :=
  input.rows.getD stop 0 - input.rows.getD start 0

end Input

/-- What a subtree is of. -/
inductive Label where
  | symbol (symbol : Nat)
  /-- Text that fits nothing. -/
  | error
  /-- Lexemes that are passed over within such a text. -/
  | passed
  deriving DecidableEq, Inhabited

/-- A piece of a reading. -/
structure Subtree where
  label : Label
  /-- The place where the blanks in front of it start. -/
  gap : Nat
  /-- The places where its first character stands and behind its last. -/
  start : Nat
  stop : Nat
  /-- What its errors cost. -/
  cost : Nat
  /-- How welcome its productions are. -/
  favour : Int
  isVisible : Bool
  /-- The number of nodes inside of it that show. -/
  innerNodes : Nat
  /-- The number of those right below it. -/
  childNodes : Nat
  /-- Whether it may stand between any two others. -/
  isExtra : Bool
  /-- Whether it stands for a lexeme that is not there. -/
  isMissing : Bool
  /-- Whether it is a name that is also a word of the language. -/
  isWord : Bool
  production : Option Nat
  children : List Subtree
  deriving Inhabited

/-! ## Costs -/

/-- What a stretch of text costs that fits nothing. -/
def errorCost : Nat := 500

/-- What a lexeme costs that is not there. -/
def missingCost : Nat := 110 + errorCost

/-- What a node costs that is passed over. -/
def nodeCost : Nat := 100

/-- What bytes and line breaks cost that are passed over. -/
def stretchCost (bytes rows : Nat) : Nat := bytes + 30 * rows

namespace Subtree

def isError (t : Subtree) : Bool := t.label == .error

def isPassed (t : Subtree) : Bool := t.label == .passed

/-- The number of nodes that show, itself included; passing over lexemes counts too. -/
def nodes (t : Subtree) : Nat :=
  t.innerNodes + (if t.isVisible then 1 else 0) + (if t.isPassed then 1 else 0)

/-- A leaf without errors. -/
def leaf (label : Label) (isVisible : Bool) (gap start stop : Nat) : Subtree :=
  { label, gap, start, stop, isVisible, cost := 0, favour := 0, innerNodes := 0, childNodes := 0
    isExtra := false, isMissing := false, isWord := false, production := none, children := [] }

/-- What passing over a subtree costs; another error without parts costs nothing more. -/
def passingCost (t : Subtree) : Nat :=
  if t.isExtra || (t.isError && t.children.isEmpty) then 0
  else if t.isVisible then nodeCost
  else nodeCost * t.childNodes

/-- The row without the extras at its end, and those. -/
def splitExtras (row : List Subtree) : List Subtree × List Subtree :=
  let extras := (row.reverse.takeWhile (·.isExtra)).reverse
  (row.take (row.length - extras.length), extras)

end Subtree

namespace Items

/-- Whether nodes of a symbol show. -/
def isVisible (its : Items) (symbol : Nat) : Bool :=
  match its.grammar.terminals[symbol]? with
  | some t => t.isVisible
  | none => (its.grammar.part? symbol).any (·.isVisible)

/-- The lexeme of a terminal. -/
def lexeme (its : Items) (terminal gap start stop : Nat) : Subtree :=
  .leaf (.symbol terminal) (its.isVisible terminal) gap start stop

/-- A lexeme that is not there. -/
def missing (its : Items) (terminal place : Nat) : Subtree :=
  { its.lexeme terminal place place place with cost := missingCost, isMissing := true }

/-- The children with the steps of the production that they were read by; extras have none. -/
def withSteps : List Step → List Subtree → List (Option Step × Subtree)
  | _, [] => []
  | steps, t :: rest =>
    if t.isExtra then (none, t) :: withSteps steps rest
    else (steps.head?, t) :: withSteps steps.tail rest

/-- The steps of a production. -/
def steps (its : Items) (production : Option Nat) : List Step :=
  ((production.bind (its.productions[·]?)).map (·.steps)).getD []

/-- How many nodes a child adds to those inside of its parent and to those right below it. -/
def shown (step : Option Step) (t : Subtree) : Nat × Nat :=
  if t.label != .symbol 0 && step.any (·.title.isSome) then (t.innerNodes + 1, 1)
  else if t.isVisible then (t.innerNodes + 1, 1)
  else (t.innerNodes, if t.children.isEmpty then 0 else t.childNodes)

/-- A subtree over others, the first of which starts at `place` if there is any. -/
def branch (its : Items) (input : Input) (label : Label) (production : Option Nat)
    (children : List Subtree) (place : Nat) : Subtree :=
  let first := children.head?
  let gap := (first.map (·.gap)).getD place
  let start := (first.map (·.start)).getD place
  let stop := (children.getLast?.map (·.stop)).getD place
  let shown := (withSteps (its.steps production) children).map fun (step, t) => shown step t
  let inner := total (fun t => if t.isPassed then 0 else t.cost) children
  let cost := match label with
    | .symbol _ => inner
    | _ => inner + total (·.passingCost) children + errorCost
      + stretchCost (input.bytesBetween start stop) (input.rowsBetween start stop)
  { label, gap, start, stop, cost
    favour := children.foldr (fun t n => t.favour + n) 0
    isVisible := match label with
      | .symbol symbol => its.isVisible symbol
      | .error => true
      | .passed => false
    innerNodes := total (·.1) shown
    childNodes := total (·.2) shown
    isExtra := false, isMissing := false, isWord := false, production, children }

/-! ## Choices between subtrees -/

/-- The place of a label in the order of symbols: names come first, errors last. -/
def labelOrder (its : Items) : Label → Nat
  | .symbol symbol =>
    if symbol == 0 then 0
    else if symbol == its.grammar.word then 1
    else if symbol < its.grammar.word then symbol + 1
    else symbol
  | .passed => its.start + 1
  | .error => its.start + 2

/-- The order of two rows of subtrees: by labels, then by numbers of children, then by those. -/
def rowOrder (its : Items) : Nat → List (Subtree × Subtree) → Ordering
  | 0, _ => .eq
  | _, [] => .eq
  | fuel + 1, (a, b) :: rest =>
    match (compare (its.labelOrder a.label) (its.labelOrder b.label)).then
        (compare a.children.length b.children.length) with
    | .eq => its.rowOrder fuel (a.children.zip b.children ++ rest)
    | o => o

/-- Whether `b` is kept rather than `a`: the one of lower cost, then the more welcome one; of sound
ones the first in the order of rows, and else the later one. -/
def isBetter (its : Items) (fuel : Nat) (a b : Subtree) : Bool :=
  if a.cost != b.cost then b.cost < a.cost
  else if a.favour != b.favour then a.favour < b.favour
  else a.cost != 0 || its.rowOrder fuel [(a, b)] == .gt

end Items

end MarkupEdit.Grammar
