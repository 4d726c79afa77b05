import MarkupEdit.Grammar.Item

/-!
# States

What a reader of a text knows at a place is a state: the items that fit what it has read, each with
the terminals that may follow its production. From the state and the next terminal follows what to
do; where several actions fit, strengths and sides decide between them, and if they do not, all of
them are left.

* `Items.expected`: the terminals that a state has an action for.
* `Items.actions`: what to do at a terminal.
* `Items.goto`: the state behind a symbol.
* `Automaton`: the states that have been reached so far, by number.
-/

namespace MarkupEdit.Grammar

/-- Items, in their order, each with the terminals that may follow its production. -/
abbrev Kernel := Array (Nat × TerminalSet)

/-- What to do at a terminal. -/
inductive Action where
  /-- Read it. If `again`, it only goes on with a repetition that may also end here. -/
  | shift (again : Bool)
  /-- Pass over it. -/
  | skip
  /-- A production ends in front of it. -/
  | reduce (item : Item)
  /-- The text ends here. -/
  | accept
  /-- Nothing fits. -/
  | recover

namespace Items

def item (its : Items) (number : Nat) : Item := its.items.getD number default

/-- The number of terminals, which parts follow. -/
def count (its : Items) : Nat := its.grammar.terminals.size

def firstOf (its : Items) (symbol : Nat) : TerminalSet := its.first.getD symbol .empty

/-- What may follow the next symbol of an item that `ahead` follows. -/
def followOf (its : Items) (i : Item) (ahead : TerminalSet) : TerminalSet :=
  match (its.item i.after).next with
  | some symbol => its.firstOf symbol
  | none => ahead

/-- What may follow `part` at the left edge of the part `outer`, which `ahead` follows. -/
def follow? (its : Items) (outer part : Nat) (ahead : TerminalSet) : Option TerminalSet :=
  ((its.edges.getD (outer - its.count) #[]).getD part none).map fun follow =>
    if follow.reaches then follow.terminals.union ahead else follow.terminals

/-- The items of a kernel that have been read, with those of parts that may be empty. -/
def completed (its : Items) (kernel : Kernel) : List (Nat × TerminalSet) :=
  kernel.toList.flatMap fun (n, ahead) =>
    let i := its.item n
    match i.next with
    | none => [(n, ahead)]
    | some symbol =>
      if symbol < its.count then []
      else its.blanks.filterMap fun (part, blank) =>
        (its.follow? symbol part (its.followOf i ahead)).map (blank, ·)

/-- The terminals that a state has an action for. -/
def expected (its : Items) (kernel : Kernel) : TerminalSet :=
  let shifted := kernel.foldl (fun s (n, _) =>
    match (its.item n).next with
    | some symbol => s.union (its.firstOf symbol)
    | none => s) (TerminalSet.ofList its.grammar.extras)
  (its.completed kernel).foldl (fun s (_, ahead) => s.union ahead) shifted

/-! ## Conflicts -/

/-- The order that a list of strengths says, if it speaks of both sides. What comes first in the
list is greater. -/
def listed (a : Strength) (as : List Nat) (b : Strength) (bs : List Nat) (sawA sawB : Bool) :
    List Standing → Option Ordering
  | [] => none
  | s :: rest =>
    if s.covers a as then
      if sawB then some .lt else listed a as b bs true sawB rest
    else if s.covers b bs then
      if sawA then some .gt else listed a as b bs sawA true rest
    else listed a as b bs sawA sawB rest

/-- How a strength at the given parts compares with another one. -/
def order (its : Items) (a : Strength) (as : List Nat) (b : Strength) (bs : List Nat) :
    Ordering :=
  let byLists := (its.grammar.ranks.findSome? (listed a as b bs false false)).getD .eq
  match a, b with
  | .level m, .level n => if m = 0 ∧ n = 0 then byLists else compare m n
  | .level m, .plain => if m = 0 then byLists else compare m 0
  | .plain, .level n => if n = 0 then byLists else compare 0 n
  | _, _ => byLists

/-- The strength of the productions that may end at a place, and the sides they group from. -/
structure Ending where
  strength : Strength
  parts : List Nat
  left : Bool
  right : Bool
  neither : Bool

def Ending.none : Ending := ⟨.plain, [], false, false, false⟩

def Ending.add (e : Ending) (i : Item) : Ending :=
  { strength := i.strength
    parts := i.part :: e.parts
    left := e.left || i.side == some .left
    right := e.right || i.side == some .right
    neither := e.neither || i.side == Option.none }

/-- The productions of greatest strength among those that may end at a place, in their order. -/
def strongest (its : Items) (completed : List Item) : List Item × Ending :=
  let (kept, ending) := completed.foldl
    (fun (kept, ending) i =>
      if kept.isEmpty then ([i], Ending.none.add i)
      else match its.order i.strength [i.part] ending.strength ending.parts with
        | .gt => ([i], Ending.none.add i)
        | .eq => (i :: kept, ending.add i)
        | .lt => (kept, ending))
    (([] : List Item), Ending.none)
  (kept.reverse, ending)

/-- Whether to end a production, to read on, or both. -/
inductive Verdict where
  | endHere
  | readOn
  | both

/-- What to do where productions may end and the items of `pending` read on: the greater strength
decides, between equal ones the side. -/
def verdict (its : Items) (pending : List Item) (ending : Ending) : Verdict :=
  let orders := pending.map fun i => its.order i.strength [i.part] ending.strength ending.parts
  let more := orders.contains .gt
  let less := orders.contains .lt
  if more && !less then .readOn
  else if less && !more then .endHere
  else if less && more then .both
  else if ending.left && !ending.neither && !ending.right then .endHere
  else if ending.right && !ending.neither && !ending.left then .readOn
  else .both

/-- Whether all items are of one repetition, which then can be read in two ways. -/
def isOneRepetition (its : Items) : List Item → Bool
  | [] => false
  | i :: rest => its.grammar.isRepetition i.part && rest.all (·.part == i.part)

def reduction (its : Items) (i : Item) : Action :=
  if i.part == its.start then .accept else .reduce i

/-- What to do at a terminal. -/
def actions (its : Items) (kernel : Kernel) (terminal : Nat) : List Action :=
  let completed := ((its.completed kernel).filter fun (_, ahead) => ahead.has terminal).map
    fun (n, _) => its.item n
  let (kept, ending) := its.strongest completed
  let reductions := kept.map its.reduction
  let pending := (kernel.toList.map fun (n, _) => its.item n).filter fun i =>
    i.next.any fun symbol => (its.firstOf symbol).has terminal
  if pending.isEmpty then
    if reductions.isEmpty && its.grammar.extras.contains terminal then [.skip] else reductions
  else if reductions.isEmpty then [.shift false]
  else
    let begun := pending.filter fun i => 0 < i.dot
    if its.isOneRepetition (begun ++ completed.filter (·.part != its.start)) then
      reductions ++ [.shift true]
    else match its.verdict begun ending with
      | .endHere => reductions
      | .readOn => [.shift false]
      | .both => reductions ++ [.shift false]

/-! ## Moves -/

/-- The items in their order, each once with all terminals that may follow it. -/
def gather (found : List (Nat × TerminalSet)) : Kernel :=
  (found.mergeSort fun a b => a.1 ≤ b.1).foldl
    (fun (kernel : Kernel) (n, ahead) =>
      match kernel.back? with
      | some (last, before) =>
        if last == n then kernel.pop.push (n, before.union ahead) else kernel.push (n, ahead)
      | none => kernel.push (n, ahead))
    #[]

/-- The parts that come next, each with what may follow it. -/
def nextParts (its : Items) (kernel : Kernel) : List (Nat × TerminalSet) :=
  (gather (kernel.toList.filterMap fun (n, ahead) =>
    let i := its.item n
    match i.next with
    | some symbol => if symbol < its.count then none else some (symbol, its.followOf i ahead)
    | none => none)).toList

/-- The state behind a symbol. -/
def goto (its : Items) (kernel : Kernel) (symbol : Nat) : Kernel :=
  let moved := kernel.toList.filterMap fun (n, ahead) =>
    let i := its.item n
    if i.next == some symbol then some (i.after, ahead) else none
  let opening := its.openings.getD symbol []
  gather (moved ++ (its.nextParts kernel).flatMap fun (outer, ahead) =>
    opening.filterMap fun (part, n) => (its.follow? outer part ahead).map (n, ·))

end Items

/-! ## Numbers of states -/

/-- A state that has been reached. -/
structure State where
  kernel : Kernel
  expected : TerminalSet
  deriving Inhabited

/-- The states that have been reached so far, and what is known about them. -/
structure Automaton where
  states : Array State
  numbers : Std.HashMap Kernel Nat
  /-- By state and symbol, the state behind the symbol. -/
  moves : Std.HashMap (Nat × Nat) Nat
  /-- By state and terminal, what to do. -/
  plans : Std.HashMap (Nat × Nat) (List Action)

namespace Automaton

/-- The number of the state in which nothing fits. -/
def lost : Nat := 0

/-- The number of the state at the start of a text. -/
def initial : Nat := 1

/-- The states to begin with. -/
def start (its : Items) : Automaton :=
  let kernel : Kernel := #[(its.startItem, .singleton 0)]
  let anything := (List.range its.count).filter fun t => !its.grammar.shy.contains t
  { states := #[⟨#[], .ofList anything⟩, ⟨kernel, its.expected kernel⟩]
    numbers := ((∅ : Std.HashMap Kernel Nat).insert #[] lost).insert kernel initial
    moves := ∅
    plans := ∅ }

def kernel (a : Automaton) (state : Nat) : Kernel := (a.states.getD state default).kernel

def expected (a : Automaton) (state : Nat) : TerminalSet :=
  (a.states.getD state default).expected

/-- The number of the state of a kernel. -/
def number (its : Items) (kernel : Kernel) (a : Automaton) : Nat × Automaton :=
  match a.numbers[kernel]? with
  | some n => (n, a)
  | none =>
    match a with
    | ⟨states, numbers, moves, plans⟩ =>
      let n := states.size
      (n, ⟨states.push ⟨kernel, its.expected kernel⟩, numbers.insert kernel n, moves, plans⟩)

/-- What to do in a state at a terminal. -/
def actions (its : Items) (state terminal : Nat) (a : Automaton) : List Action × Automaton :=
  if state == lost then ([.recover], a)
  else match a.plans[(state, terminal)]? with
    | some plan => (plan, a)
    | none =>
      let plan := its.actions (a.kernel state) terminal
      (plan, { a with plans := a.plans.insert (state, terminal) plan })

/-- The state behind a symbol that can be read. -/
def goto (its : Items) (state symbol : Nat) (a : Automaton) : Nat × Automaton :=
  match a.moves[(state, symbol)]? with
  | some next => (next, a)
  | none =>
    let (next, a) := a.number its (its.goto (a.kernel state) symbol)
    (next, { a with moves := a.moves.insert (state, symbol) next })

/-- The state behind a symbol; where it cannot be read, that in which nothing fits. -/
def move (its : Items) (state symbol : Nat) (a : Automaton) : Nat × Automaton :=
  if state == lost then (lost, a)
  else if symbol < its.count then
    let (plan, a) := a.actions its state symbol
    match plan.getLast? with
    | some (.shift _) => a.goto its state symbol
    | some .skip => (state, a)
    | _ => (lost, a)
  else a.goto its state symbol

end Automaton

end MarkupEdit.Grammar
