import MarkupEdit.Grammar.Reading
import MarkupEdit.Grammar.Script.Declaration
import MarkupEdit.Grammar.Script.Function
import MarkupEdit.Grammar.Script.Literal
import MarkupEdit.Grammar.Script.Markup
import MarkupEdit.Grammar.Script.Member
import MarkupEdit.Grammar.Script.Operator
import MarkupEdit.Grammar.Script.Statement
import MarkupEdit.Grammar.Script.Type
import MarkupEdit.Grammar.Script.Value
import MarkupEdit.Tree.Language

/-!
# Script languages

The grammars of the languages that a file can be written in. They share all entries but those of
markup, and those of what only a language without markup has.

* `grammar`: the grammar of a language.
* `read`: the best reading of a text in a language.
-/

namespace MarkupEdit.Grammar.Script

open MarkupEdit.Tree

/-- All entries of a language. -/
def entries (markup : Bool) : List Entry :=
  moduleEntries ++ statementEntries ++ valueEntries markup
    ++ (if markup then elementEntries else []) ++ nestedNameEntries
    ++ (if markup then tagEntries else [])
    ++ functionEntries ++ callEntries ++ operatorEntries ++ literalEntries ++ nameEntries
    ++ memberEntries ++ fieldEntries ++ (if markup then openTagEntries else [])
    ++ signatureEntries ++ (if markup then [] else assertionEntries)
    ++ typedValueEntries ++ declarationEntries
    ++ annotationEntries ++ typeEntries ++ objectTypeEntries

/-- Lexemes that only a look at the text around them finds. -/
def contextual : List (String × Lexical) := [
  ("_automatic_semicolon", .statementEnd), ("_template_chars", .templatePiece),
  ("_ternary_qmark", .conditionalMark), ("html_comment", .markupComment),
  ("jsx_text", .markupText), ("_function_signature_automatic_semicolon", .signatureEnd)]

/-- Parts that leave no trace. -/
def inlined : List String := [
  "_expressions", "_semicolon", "_identifier", "_reserved_identifier", "_jsx_attribute",
  "_jsx_element_name", "_jsx_child", "_jsx_element", "_jsx_attribute_name",
  "_jsx_attribute_value", "_jsx_identifier", "_lhs_expression", "_type_identifier",
  "_jsx_start_opening_element"]

/-- Parts that group others and are no nodes. -/
def groups : List String := [
  "statement", "declaration", "expression", "primary_expression", "pattern", "type",
  "primary_type"]

/-- How tightly operators, types and declarations bind. Where two parts compete of which neither has
a strength of its own, a list names the parts. -/
def ranks : List (List Rank) := [
  [.strength "member", .strength "template_call", .strength "call", .part "update_expression",
    .strength "unary_void", .strength "binary_exp", .strength "binary_times",
    .strength "binary_plus", .strength "binary_shift", .strength "binary_compare",
    .strength "binary_relation", .strength "binary_equality", .strength "bitwise_and",
    .strength "bitwise_xor", .strength "bitwise_or", .strength "logical_and",
    .strength "logical_or", .strength "ternary", .part "sequence_expression",
    .part "arrow_function"],
  [.strength "assign", .part "primary_expression"],
  [.strength "member", .strength "template_call", .strength "new", .strength "call",
    .part "expression"],
  [.strength "declare", .strength "literal"],
  [.part "primary_expression", .part "statement_block", .strength "object"],
  [.part "meta_property", .part "import"],
  [.part "import_statement", .part "import"],
  [.part "export_statement", .part "primary_expression"],
  [.part "lexical_declaration", .part "primary_expression"],
  [.strength "call", .strength "instantiation", .strength "unary", .strength "binary",
    .part "await_expression", .part "arrow_function"],
  [.strength "extends", .strength "instantiation"],
  [.part "intersection_type", .part "union_type", .part "conditional_type",
    .part "function_type", .strength "binary", .part "type_predicate", .part "readonly_type"],
  [.part "mapped_type_clause", .part "primary_expression"],
  [.part "accessibility_modifier", .part "primary_expression"],
  [.strength "unary_void", .part "expression"],
  [.part "extends_clause", .part "primary_expression"],
  [.strength "unary", .strength "assign"],
  [.strength "declare", .part "expression"],
  [.part "predefined_type", .part "unary_expression"],
  [.part "type", .part "flow_maybe_type"],
  [.part "tuple_type", .part "array_type", .part "pattern", .part "type"],
  [.part "readonly_type", .part "pattern"],
  [.part "readonly_type", .part "primary_expression"],
  [.part "type_query", .part "subscript_expression", .part "expression"],
  [.part "type_query", .part "_type_query_subscript_expression"],
  [.part "nested_type_identifier", .part "generic_type", .part "primary_type",
    .part "lookup_type", .part "index_type_query", .part "type"],
  [.part "as_expression", .part "satisfies_expression", .part "primary_type"],
  [.part "_type_query_member_expression", .part "member_expression"],
  [.part "member_expression", .part "_type_query_member_expression_in_type_annotation"],
  [.part "_type_query_member_expression", .part "primary_expression"],
  [.part "_type_query_subscript_expression", .part "subscript_expression"],
  [.part "_type_query_subscript_expression", .part "primary_expression"],
  [.part "_type_query_call_expression", .part "primary_expression"],
  [.part "_type_query_instantiation_expression", .part "primary_expression"],
  [.part "type_query", .part "primary_expression"],
  [.part "override_modifier", .part "primary_expression"],
  [.part "decorator_call_expression", .part "decorator"],
  [.part "literal_type", .part "pattern"],
  [.part "predefined_type", .part "pattern"],
  [.part "call_expression", .part "_type_query_call_expression"],
  [.part "call_expression", .part "_type_query_call_expression_in_type_annotation"],
  [.part "new_expression", .part "primary_expression"],
  [.part "meta_property", .part "primary_expression"],
  [.part "construct_signature", .part "_property_name"]]

/-- Lexemes that are too easily found where nothing fits. -/
def shy (markup : Bool) : List String :=
  (if markup then
    ["html_character_reference", "jsx_identifier", "/>",
      "unescaped_double_jsx_string_fragment", "unescaped_single_jsx_string_fragment"]
    else [])
  ++ ["unescaped_double_string_fragment", "unescaped_single_string_fragment", "regex_pattern",
    "regex_flags", "?:"]

/-- The grammar of a language. -/
def grammar (language : Language) : RuleSet :=
  let markup := language == .tsx
  { entries := entries markup
    contextual
    inlined
    hidden := groups
    extras := ["comment", "html_comment"]
    word := "identifier"
    ranks
    shy := shy markup }

/-- What a language is read by. -/
structure Tables where
  items : Items
  lexicon : Lexicon

def tablesOf (language : Language) : Tables :=
  let compiled := (grammar language).compile
  ⟨.ofCompiled compiled, .ofCompiled compiled⟩

/-- The tables of both languages. -/
def tsxTables : Tables := tablesOf .tsx
def typescriptTables : Tables := tablesOf .typescript

def tables : Language → Tables
  | .tsx => tsxTables
  | .typescript => typescriptTables

/-- The best reading of a text. -/
def read (language : Language) (text : List Char) : Option Subtree :=
  (tables language).items.read (tables language).lexicon text

end MarkupEdit.Grammar.Script
