import MarkupEdit.Grammar.Rule
import Std.Data.HashMap
import Std.Data.HashSet

/-!
# Productions

The rules of a grammar without choices and repetitions: each production lists the symbols that a
part may consist of, with the field, the name and the strength of every one of them. A repetition
becomes a part of its own, which is one occurrence or two shorter repetitions.

Symbols are numbers: first the terminals, the end of the text being number zero, then the parts.

* `RuleSet.compile`: the terminals, the parts and the productions of a grammar.
-/

namespace MarkupEdit.Grammar

/-- One symbol of a production. -/
structure Step where
  symbol : Nat
  strength : Strength
  side : Option Side
  title : Option Title
  field : Option String
  deriving DecidableEq, Hashable, Inhabited

/-- What a part may consist of. -/
structure Production where
  part : Nat
  steps : List Step
  favour : Int
  deriving DecidableEq, Hashable, Inhabited

/-- A set of lexemes, by the name of its nodes. -/
structure Terminal where
  title : Title
  isVisible : Bool
  lexical : Lexical

/-- A part and the nodes it makes. -/
structure Part where
  name : String
  isVisible : Bool
  /-- Whether it is a repetition. -/
  isRepetition : Bool

/-- What stands in a list of strengths: a strength, or all productions of a part. -/
inductive Standing where
  | strength (name : String)
  | part (symbol : Nat)

/-- Whether productions of a strength and of one of the parts are what a list speaks of. -/
def Standing.covers (standing : Standing) (strength : Strength) (parts : List Nat) : Bool :=
  match standing with
  | .strength name => strength == .named name
  | .part symbol => parts.contains symbol

/-- A grammar in terms of symbols. -/
structure Compiled where
  terminals : Array Terminal
  parts : Array Part
  productions : Array Production
  ranks : List (List Standing)
  word : Nat
  extras : List Nat
  shy : List Nat

/-- Whether a name is one that nodes are not called by. -/
def isHiddenName (name : String) : Bool := name.toList.head? == some '_'

/-! ## Terminals -/

/-- The marks of a rule, in their order. -/
def Rule.texts : Rule → List String
  | .empty => []
  | .mark text => [text]
  | .part _ => []
  | .seq first second => first.texts ++ second.texts
  | .alt first second => first.texts ++ second.texts
  | .plus rule => rule.texts
  | .field _ rule => rule.texts
  | .title _ rule => rule.texts
  | .bind _ _ rule => rule.texts
  | .favour _ rule => rule.texts

/-- The numbers of terminals by their texts and names. -/
structure Numbering where
  terminals : Array Terminal
  marks : Std.HashMap String Nat
  names : Std.HashMap String Nat

namespace Numbering

def empty : Numbering :=
  { terminals := #[⟨⟨"end", false⟩, false, .mark []⟩], marks := {}, names := {} }

def addMark (n : Numbering) (text : String) : Numbering :=
  if n.marks.contains text then n
  else
    { n with
      terminals := n.terminals.push ⟨⟨text, false⟩, true, .mark text.toList⟩
      marks := n.marks.insert text n.terminals.size }

def addLexeme (n : Numbering) (name : String) (lexical : Lexical) : Numbering :=
  { n with
    terminals := n.terminals.push ⟨⟨name, true⟩, !isHiddenName name, lexical⟩
    names := n.names.insert name n.terminals.size }

def addEntry (n : Numbering) : Entry → Numbering
  | .rule _ rule => rule.texts.foldl addMark n
  | .lexeme name lexical => n.addLexeme name lexical

end Numbering

/-- The terminals of a grammar in the order in which its entries name them. -/
def RuleSet.numbering (g : RuleSet) : Numbering :=
  g.contextual.foldl (fun n (name, lexical) => n.addLexeme name lexical)
    (g.entries.foldl Numbering.addEntry .empty)

/-! ## Repetitions -/

/-- The repetitions that were found, each with the rule that it repeats. -/
abbrev Repetitions := Array Rule

/-- The name of the part of a repetition, which no entry has. -/
def repetitionName (index : Nat) : String := "+" ++ toString index

/-- The rule with a part in the place of each repetition. -/
def Rule.unroll (rule : Rule) (found : Repetitions) : Rule × Repetitions :=
  match rule with
  | .empty => (.empty, found)
  | .mark text => (.mark text, found)
  | .part name => (.part name, found)
  | .seq first second =>
    let (first, found) := first.unroll found
    let (second, found) := second.unroll found
    (.seq first second, found)
  | .alt first second =>
    let (first, found) := first.unroll found
    let (second, found) := second.unroll found
    (.alt first second, found)
  | .plus rule =>
    let (rule, found) := rule.unroll found
    match found.findIdx? (· == rule) with
    | some index => (.part (repetitionName index), found)
    | none => (.part (repetitionName found.size), found.push rule)
  | .field name rule =>
    let (rule, found) := rule.unroll found
    (.field name rule, found)
  | .title name rule =>
    let (rule, found) := rule.unroll found
    (.title name rule, found)
  | .bind strength side rule =>
    let (rule, found) := rule.unroll found
    (.bind strength side rule, found)
  | .favour n rule =>
    let (rule, found) := rule.unroll found
    (.favour n rule, found)

/-- The rule of a repetition: two of them, or what is repeated. -/
def repetitionRule (index : Nat) (rule : Rule) : Rule :=
  let self := Rule.part (repetitionName index)
  .alt (.seq self self) rule

/-! ## Choices -/

/-- What the rules around a symbol say about it. -/
structure Setting where
  strength : Strength
  side : Option Side
  title : Option Title
  field : Option String

def Setting.plain : Setting := ⟨.plain, none, none, none⟩

/-- The symbols of one choice, and how welcome it is. -/
structure Choice where
  steps : List Step
  favour : Int

/-- The stronger of two opinions, the first if both are equally strong. -/
def outweigh (first second : Int) : Int :=
  if first.natAbs < second.natAbs then second else first

/-- Changes the last step. -/
def amendLast (f : Step → Step) : List Step → List Step
  | [] => []
  | [s] => [f s]
  | s :: rest => s :: amendLast f rest

/-- All choices of a rule. The strength and the side that a rule gives to its last symbol are those
around it, unless nothing follows. -/
def Rule.choices (symbol? : Rule → Option Nat) (setting : Setting) (isLast : Bool) :
    Rule → List Choice
  | .empty => [⟨[], 0⟩]
  | .mark text => leaf (.mark text)
  | .part name => leaf (.part name)
  | .seq first second =>
    let ends := second.choices symbol? setting isLast
    (first.choices symbol? setting false).flatMap fun a =>
      ends.map fun b => ⟨a.steps ++ b.steps, outweigh a.favour b.favour⟩
  | .alt first second =>
    first.choices symbol? setting isLast ++ second.choices symbol? setting isLast
  | .plus rule => rule.choices symbol? setting isLast
  | .field name rule => rule.choices symbol? { setting with field := some name } isLast
  | .title name rule => rule.choices symbol? { setting with title := some name } isLast
  | .bind strength side rule =>
    let inner := { setting with strength, side := side.or setting.side }
    let amend (s : Step) : Step :=
      { s with
        strength := setting.strength
        side := if side.isSome then setting.side else s.side }
    (rule.choices symbol? inner isLast).map fun c =>
      if isLast then c else { c with steps := amendLast amend c.steps }
  | .favour n rule =>
    (rule.choices symbol? setting isLast).map fun c => { c with favour := outweigh n c.favour }
where
  leaf (rule : Rule) : List Choice :=
    match symbol? rule with
    | some symbol =>
      [⟨[⟨symbol, setting.strength, setting.side, setting.title, setting.field⟩], 0⟩]
    | none => []

/-! ## Inlining -/

/-- A production with the steps of `choice` in the place of one of its steps. -/
def Production.splice (p : Production) (before : List Step) (step : Step) (after : List Step)
    (choice : Production) : Production :=
  let inserted := choice.steps.map fun s =>
    { s with title := step.title.or s.title, field := step.field.or s.field }
  let settle (s : Step) : Step :=
    { s with
      strength := if s.strength = .plain then step.strength else s.strength
      side := s.side.or step.side }
  { p with
    steps := before ++ amendLast settle inserted ++ after
    favour := outweigh p.favour choice.favour }

/-- The productions in which no inlined part is named, by replacing the first such part as often as
there is one, `fuel` times at most. -/
def Production.inline (choices? : Nat → Option (List Production)) :
    Nat → Production → List Production
  | 0, _ => []
  | fuel + 1, p =>
    let before := p.steps.takeWhile fun s => (choices? s.symbol).isNone
    match p.steps.drop before.length with
    | [] => [p]
    | step :: after =>
      ((choices? step.symbol).getD []).flatMap fun choice =>
        (p.splice before step after choice).inline choices? fuel

/-- Each element once, in the order of the first occurrences. -/
def distinct {α : Type} [BEq α] [Hashable α] (xs : List α) : List α :=
  (xs.foldl
    (fun (seen, kept) x => if seen.contains x then (seen, kept) else (seen.insert x, x :: kept))
    ((∅ : Std.HashSet α), [])).2.reverse

/-- The number of parts that may be inlined into one production. -/
def maxInlined : Nat := 64

/-! ## Compilation -/

/-- The terminals, the parts and the productions of a grammar. -/
def RuleSet.compile (g : RuleSet) : Compiled :=
  let numbering := g.numbering
  let count := numbering.terminals.size
  let rules := g.entries.filterMap fun
    | .rule name rule => some (name, rule)
    | .lexeme _ _ => none
  let (rules, found) := rules.foldl
    (fun (done, found) (name, rule) =>
      let (rule, found) := rule.unroll found
      ((name, rule) :: done, found))
    (([] : List (String × Rule)), (#[] : Repetitions))
  let repetitions := found.toList.mapIdx fun index rule =>
    (repetitionName index, repetitionRule index rule)
  let named := rules.reverse
  let rules := named ++ repetitions
  let partNumbers : Std.HashMap String Nat :=
    .ofList (rules.mapIdx fun index (name, _) => (name, count + index))
  let symbol? : Rule → Option Nat
    | .mark text => numbering.marks[text]?
    | .part name => (numbering.names[name]?).or partNumbers[name]?
    | _ => none
  let choicesOf := rules.mapIdx fun index (_, rule) =>
    distinct ((Rule.choices symbol? .plain true rule).map fun c =>
      { part := count + index, steps := c.steps, favour := c.favour })
  let inlined : Std.HashMap Nat (List Production) :=
    .ofList (((rules.zip choicesOf).mapIdx fun index ((name, _), choices) =>
      (name, count + index, choices)).filterMap fun (name, symbol, choices) =>
        if g.inlined.contains name then some (symbol, choices) else none)
  let productions := (rules.zip choicesOf).flatMap fun ((name, _), choices) =>
    if g.inlined.contains name then []
    else distinct (choices.flatMap (Production.inline (inlined[·]?) maxInlined))
  let symbolOf (name : String) : Option Nat :=
    (numbering.names[name]?).or numbering.marks[name]?
  { terminals := numbering.terminals
    parts :=
      (named.map fun (name, _) =>
        ⟨name, !(isHiddenName name || g.hidden.contains name), false⟩).toArray
        ++ (repetitions.map fun (name, _) => ⟨name, false, true⟩).toArray
    productions := productions.toArray
    ranks := g.ranks.map fun ranks => ranks.filterMap fun
      | .strength name => some (.strength name)
      | .part name => partNumbers[name]?.map .part
    word := (symbolOf g.word).getD 0
    extras := g.extras.filterMap symbolOf
    shy := g.shy.filterMap symbolOf }

end MarkupEdit.Grammar
