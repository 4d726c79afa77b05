import MarkupEdit.Grammar.Rule

/-!
# Literals and names

Strings, templates, regular expressions, numbers, names, and the words that stand for a value.
-/

namespace MarkupEdit.Grammar.Script

open Rule

/-- Literals. -/
def literalEntries : List Entry := [
  .rule "string" (any [
    all [
      mark "\"",
      many (any [
        titled "string_fragment" (part "unescaped_double_string_fragment"),
        part "escape_sequence"]),
      mark "\""],
    all [
      mark "'",
      many (any [
        titled "string_fragment" (part "unescaped_single_string_fragment"),
        part "escape_sequence"]),
      mark "'"]]),
  .lexeme "unescaped_double_string_fragment" (.stringPiece '"'),
  .lexeme "unescaped_single_string_fragment" (.stringPiece '\''),
  .lexeme "escape_sequence" .escape,
  .lexeme "comment" .comment,
  .rule "template_string" (all [
    mark "`",
    many (any [
      titled "string_fragment" (part "_template_chars"),
      part "escape_sequence",
      part "template_substitution"]),
    mark "`"]),
  .rule "template_substitution" (all [mark "$\x7b", part "_expressions", mark "\x7d"]),
  .rule "regex" (all [
    mark "/",
    field "pattern" (part "regex_pattern"),
    title ⟨"/", false⟩ (part "regex_end"),
    opt (field "flags" (part "regex_flags"))]),
  .lexeme "regex_end" .patternEnd,
  .lexeme "regex_pattern" .pattern,
  .lexeme "regex_flags" .patternFlags,
  .lexeme "number" .number]

/-- Names, and the words that stand for a value. -/
def nameEntries : List Entry := [
  .rule "_identifier" (any [part "undefined", part "identifier"]),
  .lexeme "identifier" .name,
  .lexeme "private_property_identifier" .privateName,
  .rule "meta_property" (any [
    all [mark "new", mark ".", mark "target"],
    all [mark "import", mark ".", mark "meta"]]),
  .lexeme "this" (.word "this"),
  .lexeme "super" (.word "super"),
  .lexeme "true" (.word "true"),
  .lexeme "false" (.word "false"),
  .lexeme "null" (.word "null"),
  .lexeme "undefined" (.word "undefined")]

end MarkupEdit.Grammar.Script
