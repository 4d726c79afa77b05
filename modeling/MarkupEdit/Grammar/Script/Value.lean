import MarkupEdit.Grammar.Rule

/-!
# Values

Expressions, and the brackets and braces that lists, objects and patterns are written in.
-/

namespace MarkupEdit.Grammar.Script

open Rule

/-- Expressions; in a language with markup an element is one, in another a value behind a type
between angle brackets. -/
def valueEntries (markup : Bool) : List Entry := [
  .rule "parenthesized_expression" (all [
    mark "(",
    any [
      all [part "expression", field "type" (opt (part "type_annotation"))],
      part "sequence_expression"],
    mark ")"]),
  .rule "_expressions" (any [part "expression", part "sequence_expression"]),
  .rule "expression" (parts ([
    "as_expression", "satisfies_expression", "instantiation_expression", "internal_module"]
    ++ (if markup then ["primary_expression", "_jsx_element"]
      else ["type_assertion", "primary_expression"])
    ++ ["assignment_expression", "augmented_assignment_expression", "await_expression",
      "unary_expression", "binary_expression", "ternary_expression", "update_expression",
      "new_expression", "yield_expression"])),
  .rule "primary_expression" (any [
    part "subscript_expression",
    part "member_expression",
    part "parenthesized_expression",
    part "_identifier",
    titled "identifier" (part "_reserved_identifier"),
    part "this",
    part "super",
    part "number",
    part "string",
    part "template_string",
    part "regex",
    part "true",
    part "false",
    part "null",
    part "object",
    part "array",
    part "function_expression",
    part "arrow_function",
    part "generator_function",
    part "class",
    part "meta_property",
    part "call_expression",
    part "non_null_expression"]),
  .rule "yield_expression" (rightward (all [
    mark "yield",
    opt (any [all [mark "*", part "expression"], part "expression"])])),
  .rule "object" (tight "object" (all [
    mark "\x7b",
    opt (commas (opt (any [
      part "pair",
      part "spread_element",
      part "method_definition",
      titled "shorthand_property_identifier" (any [
        part "identifier", part "_reserved_identifier"])]))),
    mark "\x7d"])),
  .rule "object_pattern" (tight "object" (all [
    mark "\x7b",
    opt (commas (opt (any [
      part "pair_pattern",
      part "rest_pattern",
      part "object_assignment_pattern",
      titled "shorthand_property_identifier_pattern" (any [
        part "identifier", part "_reserved_identifier"])]))),
    mark "\x7d"])),
  .rule "assignment_pattern" (all [
    field "left" (part "pattern"), mark "=", field "right" (part "expression")]),
  .rule "object_assignment_pattern" (all [
    field "left" (any [
      titled "shorthand_property_identifier_pattern" (any [
        part "_reserved_identifier", part "identifier"]),
      part "_destructuring_pattern"]),
    mark "=",
    field "right" (part "expression")]),
  .rule "array" (all [
    mark "[",
    opt (commas (opt (any [part "expression", part "spread_element"]))),
    mark "]"]),
  .rule "array_pattern" (all [
    mark "[",
    opt (commas (opt (any [part "pattern", part "assignment_pattern"]))),
    mark "]"])]

/-- Names behind names. -/
def nestedNameEntries : List Entry := [
  .rule "nested_identifier" (tight "member" (all [
    field "object" (any [
      part "identifier",
      titled "member_expression" (part "nested_identifier")]),
    mark ".",
    field "property" (titled "property_identifier" (part "identifier"))]))]

end MarkupEdit.Grammar.Script
