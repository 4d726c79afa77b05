import MarkupEdit.Grammar.Lexical

/-!
# Grammar rules

A grammar is data: a list of entries, each of which names a rule or a set of lexemes. A rule says
which marks, lexemes and parts follow each other, which of them stand under a field or under another
name, and how tightly it binds where two readings of a text compete.

* `Rule`: how a part of a text is written.
* `RuleSet`: the entries, and what else a reading depends on.
-/

namespace MarkupEdit.Grammar

/-- How tightly a rule binds what it reads. -/
inductive Strength where
  | plain
  | level (n : Int)
  /-- A strength that only a list of strengths ranks. -/
  | named (name : String)
  deriving DecidableEq, Hashable, Inhabited, Repr

/-- The side from which readings of equal strength group. -/
inductive Side where
  | left
  | right
  deriving DecidableEq, Hashable, Inhabited, Repr

/-- A name that a node goes by. -/
structure Title where
  name : String
  /-- Whether nodes of this name are more than marks. -/
  isNamed : Bool
  deriving DecidableEq, Hashable, Inhabited, Repr

/-- How a part of a text is written. -/
inductive Rule where
  | empty
  /-- Exactly these characters; a word only where no longer name stands. -/
  | mark (text : String)
  /-- What another entry of the grammar says. -/
  | part (name : String)
  | seq (first second : Rule)
  | alt (first second : Rule)
  /-- Once or more often. -/
  | plus (rule : Rule)
  /-- Puts what the rule reads under a field. -/
  | field (name : String) (rule : Rule)
  /-- Gives what the rule reads another name. -/
  | title (title : Title) (rule : Rule)
  | bind (strength : Strength) (side : Option Side) (rule : Rule)
  /-- Makes the rule more or less welcome where several readings fit the whole text. -/
  | favour (n : Int) (rule : Rule)
  deriving DecidableEq, Repr

namespace Rule

/-- The rules one after the other. -/
def all : List Rule → Rule
  | [] => empty
  | [r] => r
  | r :: rest => seq r (all rest)

/-- One of the rules. -/
def any : List Rule → Rule
  | [] => empty
  | [r] => r
  | r :: rest => alt r (any rest)

/-- One of several parts. -/
def parts (names : List String) : Rule := any (names.map part)

/-- One of several marks. -/
def marks (texts : List String) : Rule := any (texts.map mark)

/-- The rule or nothing. -/
def opt (r : Rule) : Rule := alt r empty

/-- The rule as often as it fits. -/
def many (r : Rule) : Rule := alt (plus r) empty

/-- The rule with `separator` between its occurrences, once at least. -/
def separated (separator r : Rule) : Rule := seq r (many (seq separator r))

/-- The rule with commas between its occurrences, once at least. -/
def commas (r : Rule) : Rule := separated (mark ",") r

/-- The rule under another name. -/
def titled (name : String) (r : Rule) : Rule := title ⟨name, true⟩ r

def tight (strength : String) (r : Rule) : Rule := bind (.named strength) none r

def tightLeft (strength : String) (r : Rule) : Rule := bind (.named strength) (some .left) r

def tightRight (strength : String) (r : Rule) : Rule := bind (.named strength) (some .right) r

/-- The rule, whose readings group from the left. -/
def leftward (r : Rule) : Rule := bind (.level 0) (some .left) r

/-- The rule, whose readings group from the right. -/
def rightward (r : Rule) : Rule := bind (.level 0) (some .right) r

end Rule

/-- A named piece of a grammar. -/
inductive Entry where
  | rule (name : String) (rule : Rule)
  | lexeme (name : String) (lexical : Lexical)

/-- What stands in a list of strengths: a strength, or all rules of a part. -/
inductive Rank where
  | strength (name : String)
  | part (name : String)

/-- How the texts of a language are written. -/
structure RuleSet where
  /-- The first entry is the whole text. -/
  entries : List Entry
  /-- Lexemes that are found by looking at what may follow. -/
  contextual : List (String × Lexical)
  /-- Parts that leave no trace: their rules stand where they are named. -/
  inlined : List String
  /-- Parts that are no nodes. -/
  hidden : List String
  /-- Lexemes that may stand between any two others. -/
  extras : List String
  /-- The lexeme that words are read as. -/
  word : String
  /-- Lists of strengths, the tightest first. -/
  ranks : List (List Rank)
  /-- Lexemes and marks that are only looked for where they fit. -/
  shy : List String

end MarkupEdit.Grammar
