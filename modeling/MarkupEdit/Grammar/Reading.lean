import MarkupEdit.Grammar.Recovery

/-!
# Readings

A run advances its heads one lexeme at a time, the one that is behind first, gives up those that
others outdo, and ends when no head could find a better reading than the best one that is finished.

* `ReadM.advance`: reads the next lexeme on a head.
* `ReadM.condense`: gives up the heads that others outdo.
* `Items.read`: the best reading of a text.
-/

namespace MarkupEdit.Grammar

namespace ReadM

/-! ## Reading on -/

/-- What has become of a head. -/
inductive Outcome where
  | done
  /-- Productions have ended; the first new head of the last one, if there is any. -/
  | reduced (new : Option Nat)
  /-- Nothing fits. -/
  | stuck

/-- Takes the actions for a lexeme in turn, up to the one that reads it. -/
def take (head state : Nat) (lookahead : Subtree) : List Action → Outcome → ReadM Outcome
  | [], outcome => return outcome
  | action :: rest, outcome => do
    match action with
    | .shift true => take head state lookahead rest outcome
    | .shift false =>
      match lookahead.label with
      | .symbol terminal =>
        let next ← move state terminal
        modifyStack (·.push head (some lookahead) next)
      | _ => pure ()
      return .done
    | .skip =>
      modifyStack (·.push head (some { lookahead with isExtra := true }) state)
      return .done
    | .reduce item =>
      let new ← reduce head item
      let last := match outcome with
        | .reduced last => last
        | _ => none
      take head state lookahead rest (.reduced (new.or last))
    | .accept =>
      accept head lookahead
      return .done
    | .recover =>
      recover head lookahead
      return .done

/-- Ends productions on a head until the lexeme is read, or nothing fits it. -/
def advanceWith (head : Nat) : Nat → Subtree → ReadM Unit
  | 0, _ => modifyStack (·.setStatus head .halted)
  | fuel + 1, lookahead => do
    let (state, _) ← whereIs head
    match ← take head state lookahead (← actions state lookahead.label) .stuck with
    | .done => return
    | .reduced (some new) =>
      modifyStack (·.moveHead new head)
      advanceWith head fuel lookahead
    | .reduced none => modifyStack (·.setStatus head .halted)
    | .stuck =>
      let its := (← read).items
      let name := Label.symbol its.grammar.word
      if lookahead.isWord && lookahead.label != name && !(← actions state name).isEmpty then
        advanceWith head fuel
          { lookahead with label := name, isVisible := its.isVisible its.grammar.word }
      else if state == Automaton.lost then recover head lookahead
      else
        let nodes := ((← stack).top head).nodes
        modifyStack (·.modifyHead head fun h =>
          { h with status := .paused lookahead, nodesAtError := nodes })

/-- Reads the next lexeme on a head. -/
def advance (head : Nat) : ReadM Unit := do
  advanceWith head (← read).fuel (← lex head)

/-! ## Giving up -/

/-- Compares the head at `head` with those before it from `other` on, and answers the number of the
head to go on with. -/
def condenseHead (mine : Standing) : Nat → Nat → Nat → ReadM Nat
  | 0, head, _ => return head + 1
  | fuel + 1, head, other => do
    if head ≤ other then return head + 1
    else
      match prefer (← standing other) mine with
      | .takeLeft =>
        modifyStack (·.remove head)
        return head
      | .takeRight =>
        modifyStack (·.remove other)
        condenseHead mine fuel (head - 1) other
      | preference =>
        if (← stack).mayMeet other head then
          modifyStack (·.merge other head)
          return head
        else
          if preference == .preferRight then modifyStack (·.swap head other)
          condenseHead mine fuel head (other + 1)

/-- Compares all heads from `head` on with those before them. Answers the least cost of those that
are not lost. -/
def condenseFrom : Nat → Nat → Option Nat → ReadM (Option Nat)
  | 0, _, least => return least
  | fuel + 1, head, least => do
    let s ← stack
    if s.heads.size ≤ head then return least
    else if s.isHalted head then
      modifyStack (·.remove head)
      condenseFrom fuel head least
    else
      let mine ← standing head
      let least := if mine.isLost then least else some (min (least.getD mine.cost) mine.cost)
      condenseFrom fuel (← condenseHead mine (2 * head + 1) head 0) least

/-- Lets the first of the paused heads go on behind its error, if no head before it is active, and
removes the others. `left` heads from `head` on are looked at. -/
def resume : Nat → Nat → Bool → Option Nat → ReadM (Option Nat)
  | 0, _, _, least => return least
  | left + 1, head, hasActive, least => do
    match (← stack).heads[head]? with
    | some ⟨_, .paused lookahead, _, _⟩ =>
      if !hasActive && (← get).accepted < maxHeads then
        let cost := (← stack).costOf head
        modifyStack (·.setStatus head .active)
        handleError head lookahead
        resume left (head + 1) true (some cost)
      else
        modifyStack (·.remove head)
        resume left head hasActive least
    | _ => resume left (head + 1) true least

/-- Gives up heads that others outdo, and all but the first of them; answers the least cost that a
reading of the others may have. -/
def condense : ReadM (Option Nat) := do
  let count ← headCount
  let least ← condenseFrom (2 * count + 1) 0 none
  modifyStack fun
    | ⟨vertices, heads⟩ => ⟨vertices, heads.extract 0 maxHeads⟩
  resume (← headCount) 0 false least

/-! ## The whole text -/

/-- Advances a head until it is behind `place`, where the heads before it are, or stops being
active. Answers the place that has been reached. -/
def advanceHead (head : Nat) : Nat → Nat → ReadM Nat
  | 0, place => return place
  | fuel + 1, place => do
    if (← stack).isActive head then
      advance head
      let (_, here) ← whereIs head
      if place < here || (0 < head && here == place) then return here
      else advanceHead head fuel place
    else return place

/-- Advances all heads from `head` on. -/
def advanceAll : Nat → Nat → Nat → ReadM Nat
  | 0, _, place => return place
  | fuel + 1, head, place => do
    if head < (← headCount) then
      advanceAll fuel (head + 1) (← advanceHead head (← read).fuel place)
    else return place

/-- Reads on until no head could find a better reading than the finished one. -/
def readAll : Nat → Nat → ReadM Unit
  | 0, _ => return
  | fuel + 1, place => do
    let place ← advanceAll (← read).fuel 0 place
    let count ← headCount
    let least ← condense
    let isDone := (← get).finished.any fun t => least.all fun cost => t.cost < cost
    if isDone || count == 0 || (← headCount) == 0 then return
    else readAll fuel place

end ReadM

/-- The number of steps that each loop may take for a text of some length. -/
def maxSteps (length : Nat) : Nat := 1000 + 10 * length

/-- The best reading of a text. -/
def Items.read (its : Items) (lexicon : Lexicon) (text : List Char) : Option Subtree :=
  let input := Input.ofText text
  let fuel := maxSteps text.length
  let run : Run :=
    { automaton := .start its, stack := .start Automaton.initial, finished := none, accepted := 0 }
  ((ReadM.readAll fuel 0).run { items := its, lexicon, input, fuel } run).2.finished

end MarkupEdit.Grammar
