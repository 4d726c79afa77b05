import MarkupEdit.Grammar.Rule

/-!
# Classes and functions

Classes and functions, as values and as declarations.
-/

namespace MarkupEdit.Grammar.Script

open Rule

/-- Classes, functions and the names of their parameters. -/
def functionEntries : List Entry := [
  .rule "class" (tight "literal" (all [
    many (field "decorator" (part "decorator")),
    mark "class",
    field "name" (opt (part "_type_identifier")),
    field "type_parameters" (opt (part "type_parameters")),
    opt (part "class_heritage"),
    field "body" (part "class_body")])),
  .rule "class_declaration" (tightLeft "declare" (all [
    many (field "decorator" (part "decorator")),
    mark "class",
    field "name" (part "_type_identifier"),
    field "type_parameters" (opt (part "type_parameters")),
    opt (part "class_heritage"),
    field "body" (part "class_body"),
    opt (part "_automatic_semicolon")])),
  .rule "class_heritage" (any [
    all [part "extends_clause", opt (part "implements_clause")],
    part "implements_clause"]),
  .rule "function_expression" (tight "literal" (all [
    opt (mark "async"), mark "function", field "name" (opt (part "identifier")),
    part "_call_signature", field "body" (part "statement_block")])),
  .rule "function_declaration" (tightRight "declare" (all [
    opt (mark "async"), mark "function", field "name" (part "identifier"), part "_call_signature",
    field "body" (part "statement_block"), opt (part "_automatic_semicolon")])),
  .rule "generator_function" (tight "literal" (all [
    opt (mark "async"), mark "function", mark "*", field "name" (opt (part "identifier")),
    part "_call_signature", field "body" (part "statement_block")])),
  .rule "generator_function_declaration" (tightRight "declare" (all [
    opt (mark "async"), mark "function", mark "*", field "name" (part "identifier"),
    part "_call_signature", field "body" (part "statement_block"),
    opt (part "_automatic_semicolon")])),
  .rule "arrow_function" (all [
    opt (mark "async"),
    any [
      field "parameter" (any [
        titled "identifier" (part "_reserved_identifier"),
        part "identifier"]),
      part "_call_signature"],
    mark "=>",
    field "body" (any [part "expression", part "statement_block"])]),
  .rule "_call_signature" (all [
    field "type_parameters" (opt (part "type_parameters")),
    field "parameters" (part "formal_parameters"),
    field "return_type" (opt (parts [
      "type_annotation", "asserts_annotation", "type_predicate_annotation"]))]),
  .rule "_formal_parameter" (any [part "required_parameter", part "optional_parameter"])]

end MarkupEdit.Grammar.Script
