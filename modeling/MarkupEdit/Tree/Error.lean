import MarkupEdit.Tree.Language

/-!
# Errors about trees

Everything that can be wrong with a text, a snippet, a path or a walk, by its cause. The wording is
in `SyntaxFault.message`.
-/

namespace MarkupEdit.Tree

/-- The number of branches that may be open around a branch. -/
def maxDepth : Nat := 1000

/-- What is wrong at a place of a text. -/
inductive Problem where
  /-- Nothing in the language reads like this. -/
  | unexpected
  /-- A lexeme of a kind should stand here. -/
  | missing (kind : String)
  deriving DecidableEq, Repr

def Problem.text : Problem → String
  | unexpected => "unexpected syntax"
  | missing kind => "missing " ++ kind

/-- A place where a text leaves its language. -/
structure Flaw where
  /-- The first byte. -/
  start : Nat
  /-- The byte behind the last. -/
  stop : Nat
  /-- The line and the column of the first byte, both from one. -/
  line : Nat
  column : Nat
  /-- How the text there begins. -/
  excerpt : String
  problem : Problem
  deriving DecidableEq, Repr

/-- Why a tree cannot be read, addressed, walked or written. -/
inductive SyntaxFault where
  /-- The text is not in the language. -/
  | malformed (language : Language) (flaws : List Flaw)
  /-- The branch at a line and a column, both from one, is nested too deep. -/
  | tooDeep (language : Language) (line column : Nat)
  | invalidSnippet (reason : String)
  | invalidPath (path reason : String)
  | visit (reason : String)
  | print (language : Language) (reason : String)
  deriving DecidableEq, Repr

namespace SyntaxFault

/-- The message about a text that cannot be read at a line and a column. -/
def unreadable (language : Language) (line column : Nat) (reason : String) : String :=
  "failed to parse " ++ language.name ++ " at " ++ toString line ++ ":" ++ toString column
    ++ ": " ++ reason

/-- The message; of several flaws it tells the first. -/
def message : SyntaxFault → String
  | malformed language [] => unreadable language 0 0 "syntax error"
  | malformed language (flaw :: _) =>
    unreadable language flaw.line flaw.column
      (flaw.problem.text ++ " near `" ++ flaw.excerpt ++ "`")
  | tooDeep language line column =>
    unreadable language line column ("nesting exceeds " ++ toString maxDepth ++ " levels")
  | invalidSnippet reason => "invalid markup snippet: " ++ reason
  | invalidPath path reason => "invalid tree path " ++ path ++ ": " ++ reason
  | visit reason => "traversal failed: " ++ reason
  | print language reason => "failed to print " ++ language.name ++ " source: " ++ reason

/-- Whether the fault lies in a text that somebody wrote. -/
def isParseFault : SyntaxFault → Bool
  | malformed _ _ => true
  | tooDeep _ _ _ => true
  | invalidSnippet _ => true
  | _ => false

end SyntaxFault

end MarkupEdit.Tree
