import MarkupEdit.Grammar.Scan
import MarkupEdit.Grammar.Stack

/-!
# Runs

A run reads a text with all the readings that it may have, one lexeme at a time. This module holds
its steps on single heads: the next lexeme, the end of a production, and the choice between readings
of one stretch.

* `Context`: what a run does not change.
* `Run`: what it has found so far.
* `ReadM.lex`: the next lexeme of a head.
* `ReadM.reduce`: the end of a production.
-/

namespace MarkupEdit.Grammar

/-- What a run reads, and by which grammar. -/
structure Context where
  items : Items
  lexicon : Lexicon
  input : Input
  /-- The number of steps that each loop may take. -/
  fuel : Nat

/-- What a run has found so far. -/
structure Run where
  automaton : Automaton
  stack : Stack
  /-- The best reading of the whole text. -/
  finished : Option Subtree
  /-- The number of such readings. -/
  accepted : Nat

/-- Steps of a run. -/
abbrev ReadM := ReaderT Context (StateM Run)

namespace ReadM

/-- The number of heads that are kept, and of those that there may be for a moment. -/
def maxHeads : Nat := 6
def spareHeads : Nat := 4

def stack : ReadM Stack := return (← get).stack

def modifyStack (f : Stack → Stack) : ReadM Unit :=
  modify fun
    | ⟨automaton, stack, finished, accepted⟩ => ⟨automaton, f stack, finished, accepted⟩

/-- What to do in a state at a lexeme. Nothing fits what is none. -/
def actions (state : Nat) (label : Label) : ReadM (List Action) := do
  match label with
  | .symbol terminal =>
    let its := (← read).items
    modifyGet fun
      | ⟨automaton, stack, finished, accepted⟩ =>
        let (plan, automaton) := automaton.actions its state terminal
        (plan, ⟨automaton, stack, finished, accepted⟩)
  | _ => return []

/-- The state behind a symbol. -/
def move (state symbol : Nat) : ReadM Nat := do
  let its := (← read).items
  modifyGet fun
    | ⟨automaton, stack, finished, accepted⟩ =>
      let (next, automaton) := automaton.move its state symbol
      (next, ⟨automaton, stack, finished, accepted⟩)

def expected (state : Nat) : ReadM TerminalSet := return (← get).automaton.expected state

/-- The state and the place of a head. -/
def whereIs (head : Nat) : ReadM (Nat × Nat) := do
  let v := (← get).stack.top head
  return (v.state, v.place)

/-- The state of a vertex. -/
def vertexState (vertex : Nat) : ReadM Nat := return ((← get).stack.vertex vertex).state

def headCount : ReadM Nat := return (← get).stack.heads.size

/-! ## Lexemes -/

/-- The leaf of a piece of text at a place. A word that a state does not expect is a name. -/
def leafOf (expected : TerminalSet) (place : Nat) (piece : Piece) : ReadM Subtree := do
  let ⟨its, lx, input, _⟩ ← read
  let start := place + piece.gap
  let stop := start + piece.size
  if piece.terminal == lx.word then
    match lx.words[String.ofList ((input.rest start).take piece.size)]? with
    | some word =>
      let terminal := if expected.has word then word else lx.word
      return { its.lexeme terminal place start stop with isWord := true }
    | none => return its.lexeme lx.word place start stop
  else
    return { its.lexeme piece.terminal place start stop with isExtra := piece.terminal == 0 }

/-- Passes over characters up to the next lexeme of any kind: from `place` on, where `skipped` is
the stretch of what has been passed over. -/
def skipTo (input : Input) (lx : Lexicon) (anything : TerminalSet) :
    Nat → Nat → Option (Nat × Nat) → Option (Nat × Nat) × Nat × Option Piece
  | 0, place, skipped => (skipped, place, none)
  | fuel + 1, place, skipped =>
    let s := input.rest place
    match lx.plain? anything s with
    | some piece => (skipped, place, some piece)
    | none =>
      let gap := blankLength s
      let broken := place + gap + brokenLength (gap == 0) (s.drop gap)
      let (start, stop) := skipped.getD (place + gap, place + gap)
      let next := if broken == stop then broken + 1 else broken
      skipTo input lx anything fuel next (some (start, next))

/-- The lexeme that the text around a place shows. An end that no character marks counts only where
something has been read since an error, and where it leads on. -/
def contextual? (head state place : Nat) (expected : TerminalSet) : ReadM (Option Piece) := do
  let ⟨_, lx, input, _⟩ ← read
  match lx.contextual? expected (input.rest place) with
  | none => return none
  | some piece =>
    if 0 < piece.size then return some piece
    else if !(← stack).hasAdvanced head then return none
    else if (← move state piece.terminal) == state then return none
    else return some piece

/-- The next lexeme of a head, or a stretch of text that holds none. -/
def lex (head : Nat) : ReadM Subtree := do
  let ⟨its, lx, input, _⟩ ← read
  let (state, place) ← whereIs head
  let expected ← expected state
  let fitting ←
    if state == Automaton.lost then pure none
    else match ← contextual? head state place expected with
      | some piece => pure (some piece)
      | none => pure (lx.plain? expected (input.rest place))
  match fitting with
  | some piece => leafOf expected place piece
  | none =>
    let anything ← ReadM.expected Automaton.lost
    match skipTo input lx anything (input.size + 2) place none with
    | (none, _, some piece) => leafOf expected place piece
    | (some (start, stop), _, _) => return .leaf .error true place start (min stop input.size)
    | (none, _, none) => return its.lexeme 0 place place place

/-! ## Choices -/

/-- Whether the second of two subtrees of one stretch of text is kept. -/
def isBetter (a b : Subtree) : ReadM Bool := do
  let ⟨its, _, _, fuel⟩ ← read
  return its.isBetter fuel a b

/-- Lets a head meet one of those before it from `first` on, but for `except`; answers whether one
could be met. -/
def mergeInto (head first : Nat) (except : Option Nat) : ReadM Bool := do
  let others := (List.range' first (head - first)).filter fun n => except != some n
  match others.find? ((← stack).mayMeet · head) with
  | none => return false
  | some other =>
    modifyStack (·.merge other head)
    return true

/-- The best of the subtrees that rows over one vertex make, and the extras at the end of its
row. -/
def bestOf (item : Item) (place : Nat) :
    List (List Subtree) → Option (Subtree × List Subtree) → ReadM (Option (Subtree × List Subtree))
  | [], best => return best
  | row :: rest, best => do
    let ⟨its, _, input, _⟩ ← read
    let (row, extras) := Subtree.splitExtras row
    let t := its.branch input (.symbol item.part) (some item.production) row place
    let t := { t with favour := t.favour + item.favour }
    match best with
    | none => bestOf item place rest (some (t, extras))
    | some (b, _) =>
      if ← isBetter b t then bestOf item place rest (some (t, extras))
      else bestOf item place rest best

/-- Ends a production: for each vertex below its subtrees there is a new head, which meets others if
it may. Answers the number of the first new head. -/
def reduce (head : Nat) (item : Item) : ReadM (Option Nat) := do
  let before ← headCount
  let halted := (List.range before).countP (← stack).isHalted
  let (_, place) ← whereIs head
  let nodesAtError := (((← stack).heads[head]?).map (·.nodesAtError)).getD 0
  for (vertex, rows) in (← stack).pops head item.length do
    let new ← headCount
    if new ≤ maxHeads + spareHeads + halted then
      if let some (t, extras) ← bestOf item place rows none then
        let next ← move (← vertexState vertex) item.part
        modifyStack (·.addHead ⟨vertex, .active, nodesAtError, none⟩)
        modifyStack (·.push new (some t) next)
        for extra in extras do
          modifyStack (·.push new (some extra) next)
        discard <| mergeInto new 0 (some head)
  return if before < (← headCount) then some before else none

end ReadM

end MarkupEdit.Grammar
