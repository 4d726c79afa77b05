import MarkupEdit.Grammar.Rule

/-!
# Arguments, members and patterns

What calls, classes and objects hold.
-/

namespace MarkupEdit.Grammar.Script

open Rule

/-- Arguments, decorators, the bodies of classes and the names of members. -/
def memberEntries : List Entry := [
  .rule "arguments" (all [
    mark "(",
    opt (commas (opt (any [part "expression", part "spread_element"]))),
    mark ")"]),
  .rule "decorator" (all [
    mark "@",
    any [
      part "identifier",
      titled "member_expression" (part "decorator_member_expression"),
      titled "call_expression" (part "decorator_call_expression"),
      titled "parenthesized_expression" (part "decorator_parenthesized_expression")]]),
  .rule "decorator_member_expression" (tight "member" (all [
    field "object" (any [
      part "identifier",
      titled "member_expression" (part "decorator_member_expression")]),
    mark ".",
    field "property" (titled "property_identifier" (part "identifier"))])),
  .rule "decorator_call_expression" (tight "call" (all [
    field "function" (any [
      part "identifier",
      titled "member_expression" (part "decorator_member_expression")]),
    opt (field "type_arguments" (part "type_arguments")),
    field "arguments" (part "arguments")])),
  .rule "class_body" (all [
    mark "\x7b",
    many (any [
      all [
        many (field "decorator" (part "decorator")),
        part "method_definition",
        opt (part "_semicolon")],
      all [
        part "method_signature",
        any [part "_function_signature_automatic_semicolon", mark ","]],
      part "class_static_block",
      all [
        parts [
          "abstract_method_signature", "index_signature", "method_signature",
          "public_field_definition"],
        any [part "_semicolon", mark ","]],
      mark ";"]),
    mark "\x7d"]),
  .rule "formal_parameters" (all [
    mark "(",
    opt (all [commas (part "_formal_parameter"), opt (mark ",")]),
    mark ")"]),
  .rule "class_static_block" (all [
    mark "static", opt (part "_automatic_semicolon"), field "body" (part "statement_block")]),
  .rule "pattern" (favour (-1) (any [part "_lhs_expression", part "rest_pattern"])),
  .rule "rest_pattern" (rightward (all [mark "...", part "_lhs_expression"])),
  .rule "method_definition" (all [
    opt (part "accessibility_modifier"), opt (mark "static"), opt (part "override_modifier"),
    opt (mark "readonly"), opt (mark "async"), opt (marks ["get", "set", "*"]),
    field "name" (part "_property_name"), opt (mark "?"), part "_call_signature",
    field "body" (part "statement_block")]),
  .rule "pair" (all [
    field "key" (part "_property_name"), mark ":", field "value" (part "expression")]),
  .rule "pair_pattern" (all [
    field "key" (part "_property_name"),
    mark ":",
    field "value" (any [part "pattern", part "assignment_pattern"])]),
  .rule "_property_name" (any [
    titled "property_identifier" (any [part "identifier", part "_reserved_identifier"]),
    part "private_property_identifier",
    part "string",
    part "number",
    part "computed_property_name"]),
  .rule "computed_property_name" (all [mark "[", part "expression", mark "]"]),
  .rule "_reserved_identifier" (marks [
    "declare", "namespace", "type", "public", "private", "protected", "override", "readonly",
    "module", "any", "number", "boolean", "string", "symbol", "export", "object", "new", "get",
    "set", "async", "static", "export", "let"]),
  .rule "_semicolon" (any [part "_automatic_semicolon", mark ";"])]

/-- Fields of a class. -/
def fieldEntries : List Entry := [
  .rule "public_field_definition" (all [
    many (field "decorator" (part "decorator")),
    opt (any [
      all [mark "declare", opt (part "accessibility_modifier")],
      all [part "accessibility_modifier", opt (mark "declare")]]),
    opt (any [
      all [opt (mark "static"), opt (part "override_modifier"), opt (mark "readonly")],
      all [opt (mark "abstract"), opt (mark "readonly")],
      all [opt (mark "readonly"), opt (mark "abstract")],
      mark "accessor"]),
    field "name" (part "_property_name"),
    opt (marks ["?", "!"]),
    field "type" (opt (part "type_annotation")),
    opt (part "_initializer")])]

end MarkupEdit.Grammar.Script
