import MarkupEdit.Grammar.Run

/-!
# Recovery

Where nothing fits the next lexeme, a reader is lost. It first ends every production that could end
and looks whether a missing lexeme would help. Then it goes on from where it is or from a state that
it has been in before: what lies between is an error, and what it costs decides which readings are
kept.

* `ReadM.reduceAll`: ends all productions that may end.
* `ReadM.recover`: goes on behind an error.
* `ReadM.handleError`: what a lost reader does first.
-/

namespace MarkupEdit.Grammar

namespace ReadM

/-- How far down a lost reader looks for a state to go back to. -/
def maxDepth : Nat := 16

/-! ## Comparing heads -/

/-- What decides between two heads. -/
structure Standing where
  cost : Nat
  /-- The number of nodes since the last error. -/
  nodes : Nat
  favour : Int
  isLost : Bool

/-- Which of two heads is preferred, and whether so much that the other is given up. -/
inductive Preference where
  | takeLeft
  | preferLeft
  | none
  | preferRight
  | takeRight
  deriving DecidableEq

/-- The difference in cost, weighed by what has been read since, that decides between heads. -/
def maxCostDifference : Nat := 1800

/-- Compares two heads: one that is not lost is preferred, then the one of lower cost, then the more
welcome one. -/
def prefer (a b : Standing) : Preference :=
  if !a.isLost && b.isLost then
    if a.cost < b.cost then .takeLeft else .preferLeft
  else if a.isLost && !b.isLost then
    if b.cost < a.cost then .takeRight else .preferRight
  else if a.cost < b.cost then
    if maxCostDifference < (b.cost - a.cost) * (1 + a.nodes) then .takeLeft else .preferLeft
  else if b.cost < a.cost then
    if maxCostDifference < (a.cost - b.cost) * (1 + b.nodes) then .takeRight else .preferRight
  else if b.favour < a.favour then .preferLeft
  else if a.favour < b.favour then .preferRight
  else .none

/-- What decides between a head and others. -/
def standing (head : Nat) : ReadM Standing := do
  modifyStack (·.settle head)
  let s ← stack
  let v := s.top head
  let isPaused := s.isPaused head
  return { cost := s.costOf head + (if isPaused then nodeCost else 0)
           nodes := s.nodesSinceError head
           favour := v.favour
           isLost := isPaused || v.state == Automaton.lost }

/-- Whether a head at the place of another one or behind it is better than that one would be at a
cost. -/
def anyBetter (head cost : Nat) (mine : Standing) (place : Nat) : List Nat → ReadM Bool
  | [] => return false
  | other :: rest => do
    let s ← stack
    if other == head || !s.isActive other || (s.top other).place < place then
      anyBetter head cost mine place rest
    else
      match prefer mine (← standing other) with
      | .takeRight => return true
      | .preferRight =>
        if (← stack).mayMeet other head then return true
        else anyBetter head cost mine place rest
      | _ => anyBetter head cost mine place rest

/-- Whether there is a better reading than that of a head would be at a cost. -/
def isOutdone (head cost : Nat) : ReadM Bool := do
  if (← get).finished.any (·.cost ≤ cost) then return true
  modifyStack (·.settle head)
  let s ← stack
  let v := s.top head
  let mine : Standing :=
    { cost, nodes := s.nodesSinceError head, favour := v.favour, isLost := false }
  anyBetter head cost mine v.place (List.range s.heads.size)

/-! ## Ending productions -/

/-- The terminals in the order in which they are tried. -/
def terminals : ReadM (List Nat) := do
  let its := (← read).items
  let word := its.grammar.word
  return word :: ((List.range its.count).drop 1).filter (· != word)

/-- The productions that may end in a state in front of one of some terminals, each once, and
whether one of the terminals could be read. -/
def plansOf (state : Nat) : List Nat → List Item → Bool → ReadM (List Item × Bool)
  | [], items, canRead => return (items.reverse, canRead)
  | terminal :: rest, items, canRead => do
    let plan ← actions state (.symbol terminal)
    let (items, canRead) := plan.foldl
      (fun (items, canRead) action =>
        match action with
        | .shift again => (items, canRead || !again)
        | .recover => (items, true)
        | .reduce i =>
          if i.length == 0 || items.any fun j => j.part == i.part && j.length == i.length then
            (items, canRead)
          else (i :: items, canRead)
        | _ => (items, canRead))
      (items, canRead)
    plansOf state rest items canRead

/-- Ends productions on a head in turn, and answers the first new head of the last one. -/
def reduceEach (head : Nat) : List Item → Option Nat → ReadM (Option Nat)
  | [], new => return new
  | item :: rest, _ => do reduceEach head rest (← reduce head item)

/-- Ends all productions on the heads from `head` on, those from `first` on being new; `round`
counts the steps. Answers whether one of them could read `terminal`, or any terminal if there is
none. -/
def reduceFrom (start first : Nat) (terminal : Option Nat) :
    Nat → Nat → Nat → Bool → ReadM Bool
  | 0, _, _, canRead => return canRead
  | fuel + 1, round, head, canRead => do
    let count ← headCount
    if count ≤ head then return canRead
    else if ← mergeInto head first none then
      reduceFrom start first terminal fuel (round + 1) head canRead
    else
      let (state, _) ← whereIs head
      let sought ← match terminal with
        | some t => pure [t]
        | none => terminals
      let (items, reads) ← plansOf state sought [] false
      let new ← reduceEach head items none
      let next := if head == start then count else head + 1
      if reads then reduceFrom start first terminal fuel (round + 1) next true
      else match (if round < maxHeads then new else none) with
        | some new =>
          modifyStack (·.moveHead new head)
          reduceFrom start first terminal fuel (round + 1) head canRead
        | none =>
          if terminal.isSome then modifyStack (·.remove head)
          reduceFrom start first terminal fuel (round + 1) next canRead

/-- Ends all productions that may end on a head in front of a terminal, or of any if there is none.
Answers whether the terminal can then be read. -/
def reduceAll (head : Nat) (terminal : Option Nat) : ReadM Bool := do
  reduceFrom head (← headCount) terminal (← read).fuel 0 head false

/-! ## Going on -/

/-- Takes the error off a head that is on top of it, and answers what it holds. -/
def popError (head : Nat) : ReadM (List Subtree) := do
  let s ← stack
  if (s.top head).links.any fun l => l.subtree.any (·.isError) then
    let visit (found : Bool) (p : Stack.Path) : Bool × Stack.Visit :=
      match p.subtrees with
      | [] => (found, ⟨false, false⟩)
      | t :: _ => if !found && t.isError then (true, ⟨true, true⟩) else (found, ⟨false, true⟩)
    match (s.walkFrom head visit false).1 with
    | p :: _ =>
      modifyStack (·.modifyHead head fun h => { h with vertex := p.vertex, status := .active })
      return (p.subtrees.head?.map (·.children)).getD []
    | [] => return []
  else return []

/-- Goes back to a state `depth` subtrees below a head: what was above is an error. -/
def goBack (head depth goal : Nat) : ReadM Bool := do
  let ⟨its, _, input, _⟩ ← read
  let nodesAtError := (((← stack).heads[head]?).map (·.nodesAtError)).getD 0
  let mut isBack := false
  for (vertex, rows) in (← stack).pops head depth do
    let row := rows.headD []
    if (← vertexState vertex) == goal then
      let new ← headCount
      modifyStack (·.addHead ⟨vertex, .active, nodesAtError, none⟩)
      let (row, extras) := Subtree.splitExtras ((← popError new) ++ row)
      if !row.isEmpty then
        let error := its.branch input .error none row 0
        modifyStack (·.push new (some { error with isExtra := true }) goal)
      for extra in extras do
        modifyStack (·.push new (some extra) goal)
      isBack := true
  return isBack

/-- Looks for a milestone of a head in whose state a terminal fits, and goes back to it. Of those
that cost more than another reading none is taken. -/
def goBackFor (head terminal cost place : Nat) (hasNodes : Bool) (heads : List Nat) :
    List Milestone → ReadM Bool
  | [] => return false
  | m :: rest => do
    let input := (← read).input
    let depth := if hasNodes then m.depth + 1 else m.depth
    let s ← stack
    if m.state == Automaton.lost || m.place == place
        || heads.any (fun h => (s.top h).state == m.state && (s.top h).place == place) then
      goBackFor head terminal cost place hasNodes heads rest
    else if ← isOutdone head (cost + depth * nodeCost
        + stretchCost (input.bytesBetween m.place place) (input.rowsBetween m.place place)) then
      return false
    else if (← actions m.state (.symbol terminal)).isEmpty then
      goBackFor head terminal cost place hasNodes heads rest
    else if ← goBack head depth m.state then return true
    else goBackFor head terminal cost place hasNodes heads rest

/-- Takes the extras at the end of a whole reading apart, and its children up into a root. -/
def rootOf (row : List Subtree) : ReadM (Option Subtree) := do
  let ⟨its, _, input, _⟩ ← read
  let (inner, extras) := Subtree.splitExtras row
  match inner.getLast? with
  | none => return none
  | some t =>
    return some (its.branch input t.label t.production
      (inner.dropLast ++ t.children ++ extras) 0)

/-- Keeps the best of whole readings. -/
def keepBest : List (List Subtree) → ReadM Unit
  | [] => return
  | row :: rest => do
    if let some root ← rootOf row then
      let isBest ← match (← get).finished with
        | none => pure true
        | some old => isBetter old root
      modify fun run =>
        { run with
          finished := if isBest then some root else run.finished
          accepted := run.accepted + 1 }
    keepBest rest

/-- Ends the reading of a head at the end of the text. -/
def accept (head : Nat) (lookahead : Subtree) : ReadM Unit := do
  modifyStack (·.push head (some lookahead) Automaton.initial)
  keepBest ((← stack).rows head)
  modifyStack (·.setStatus head .halted)

/-- Passes over a lexeme; it joins those that have been passed over before it. -/
def passOver (head : Nat) (lookahead : Subtree) (hasNodes : Bool) : ReadM Unit := do
  let ⟨its, _, input, _⟩ ← read
  let plan ← actions Automaton.initial lookahead.label
  let isExtra := match plan.getLast? with
    | some .skip => true
    | _ => lookahead.isExtra
  let passed := its.branch input .passed none [{ lookahead with isExtra }] 0
  let (row, vertex) ←
    if hasNodes then
      match (← stack).pops head 1 with
      | (vertex, rows) :: _ => pure (rows.headD [], some vertex)
      | [] => pure ([], none)
    else pure ([], none)
  if let some vertex := vertex then
    modifyStack (·.modifyHead head fun h => { h with vertex, status := .active })
  let passed := if hasNodes then its.branch input .passed none (row ++ [passed]) 0 else passed
  modifyStack (·.push head (some passed) Automaton.lost)

/-- Goes on behind an error: with a state that has been left, in which the next lexeme fits, and by
passing over that lexeme. -/
def recover (head : Nat) (lookahead : Subtree) : ReadM Unit := do
  let input := (← read).input
  let before ← headCount
  modifyStack (·.settle head)
  let s ← stack
  let (_, place) ← whereIs head
  let hasNodes := 0 < s.nodesSinceError head
  let cost := s.costOf head
  let milestones := ((s.heads[head]?).bind (·.milestones)).getD []
  let isBack ← match lookahead.label with
    | .symbol terminal =>
      goBackFor head terminal cost place hasNodes (List.range before) milestones
    | _ => pure false
  if lookahead.label == .symbol 0 then
    let its := (← read).items
    modifyStack (·.push head (some (its.branch input .error none [] place)) Automaton.initial)
    accept head lookahead
  else if isBack && maxHeads < (← headCount) then modifyStack (·.setStatus head .halted)
  else if ← isOutdone head (cost + nodeCost
      + stretchCost (input.bytesBetween lookahead.gap lookahead.stop)
        (input.rowsBetween lookahead.gap lookahead.stop)) then
    modifyStack (·.setStatus head .halted)
  else passOver head lookahead hasNodes

/-! ## Getting lost -/

/-- The states below a head, each once for the smallest depth. -/
def milestonesOf (s : Stack) (head : Nat) : List Milestone :=
  let visit (found : List Milestone) (p : Stack.Path) : List Milestone × Stack.Visit :=
    if maxDepth < p.count then (found, ⟨false, true⟩)
    else
      let v := s.vertex p.vertex
      let isKnown := (found.takeWhile fun m => p.count ≤ m.depth).any fun m =>
        m.depth == p.count && m.state == v.state
      if isKnown then (found, ⟨false, false⟩)
      else (⟨p.count, v.state, v.place⟩ :: found, ⟨false, false⟩)
  (s.walkFrom head visit []).2.reverse

/-- Looks for a terminal that is missing on a head in front of the next one: behind it a production
may end, and then the next one can be read. -/
def findMissing (head next : Nat) : List Nat → ReadM Bool
  | [] => return false
  | terminal :: rest => do
    let its := (← read).items
    let (state, place) ← whereIs head
    let behind ← move state terminal
    if behind == Automaton.lost || behind == state then findMissing head next rest
    else
      match ← actions behind (.symbol next) with
      | .reduce _ :: _ =>
        let copy ← headCount
        modifyStack (·.copyHead head)
        modifyStack (·.push copy (some (its.missing terminal place)) behind)
        if ← reduceAll copy (if next == 0 then none else some next) then return true
        else findMissing head next rest
      | _ => findMissing head next rest

/-- Looks for missing terminals on the heads, and leaves all of them lost. -/
def loseHeads (lookahead : Subtree) : List Nat → Bool → ReadM Unit
  | [], _ => return
  | head :: rest, isFound => do
    let isFound ←
      match lookahead.label with
      | .symbol next =>
        if isFound then pure true else findMissing head next (← terminals)
      | _ => pure isFound
    modifyStack (·.push head none Automaton.lost)
    loseHeads lookahead rest isFound

/-- What a reader does where nothing fits the next lexeme. -/
def handleError (head : Nat) (lookahead : Subtree) : ReadM Unit := do
  let before ← headCount
  discard <| reduceAll head none
  let after ← headCount
  loseHeads lookahead (head :: List.range' before (after - before)) false
  for _ in List.range (after - before) do
    modifyStack fun s => if s.mayMeet head before then s.merge head before else s
  let milestones := milestonesOf (← stack) head
  modifyStack (·.modifyHead head fun h => { h with milestones := some milestones })
  recover head lookahead

end ReadM

end MarkupEdit.Grammar
