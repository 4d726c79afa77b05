import MarkupEdit.Grammar.Rule

/-!
# Typed declarations

Declarations that only a language with types has, and the values that name a type.
-/

namespace MarkupEdit.Grammar.Script

open Rule

/-- Names of imports, and signatures without a body. -/
def signatureEntries : List Entry := [
  .rule "_import_identifier" (any [part "identifier", titled "identifier" (mark "type")]),
  .rule "non_null_expression" (tightLeft "unary" (all [part "expression", mark "!"])),
  .rule "method_signature" (all [
    opt (part "accessibility_modifier"), opt (mark "static"), opt (part "override_modifier"),
    opt (mark "readonly"), opt (mark "async"), opt (marks ["get", "set", "*"]),
    field "name" (part "_property_name"), opt (mark "?"), part "_call_signature"]),
  .rule "abstract_method_signature" (all [
    opt (part "accessibility_modifier"), mark "abstract", opt (part "override_modifier"),
    opt (marks ["get", "set", "*"]), field "name" (part "_property_name"), opt (mark "?"),
    part "_call_signature"]),
  .rule "function_signature" (all [
    opt (mark "async"),
    mark "function",
    field "name" (part "identifier"),
    part "_call_signature",
    any [part "_semicolon", part "_function_signature_automatic_semicolon"]]),
  .rule "decorator_parenthesized_expression" (all [
    mark "(",
    any [
      part "identifier",
      titled "member_expression" (part "decorator_member_expression"),
      titled "call_expression" (part "decorator_call_expression")],
    mark ")"])]

/-- A value behind a type between angle brackets. -/
def assertionEntries : List Entry := [
  .rule "type_assertion" (tightLeft "unary" (all [part "type_arguments", part "expression"]))]

/-- Values behind which a type is named, and the clauses of a class. -/
def typedValueEntries : List Entry := [
  .rule "as_expression" (tightLeft "binary" (all [
    part "expression", mark "as", any [mark "const", part "type"]])),
  .rule "satisfies_expression" (tightLeft "binary" (all [
    part "expression", mark "satisfies", part "type"])),
  .rule "instantiation_expression" (tight "instantiation" (all [
    part "expression",
    field "type_arguments" (part "type_arguments")])),
  .rule "import_require_clause" (all [
    part "identifier", mark "=", mark "require", mark "(", field "source" (part "string"),
    mark ")"]),
  .rule "extends_clause" (all [mark "extends", commas (part "_extends_clause_single")]),
  .rule "_extends_clause_single" (tight "extends" (all [
    field "value" (part "expression"),
    field "type_arguments" (opt (part "type_arguments"))])),
  .rule "implements_clause" (all [mark "implements", commas (part "type")])]

/-- Ambient declarations, modules, interfaces and enumerations. -/
def declarationEntries : List Entry := [
  .rule "ambient_declaration" (all [
    mark "declare",
    any [
      part "declaration",
      all [mark "global", part "statement_block"],
      all [
        mark "module",
        mark ".",
        titled "property_identifier" (part "identifier"),
        mark ":",
        part "type",
        part "_semicolon"]]]),
  .rule "abstract_class_declaration" (tight "declare" (all [
    many (field "decorator" (part "decorator")),
    mark "abstract",
    mark "class",
    field "name" (part "_type_identifier"),
    field "type_parameters" (opt (part "type_parameters")),
    opt (part "class_heritage"),
    field "body" (part "class_body")])),
  .rule "module" (all [mark "module", part "_module"]),
  .rule "internal_module" (all [mark "namespace", part "_module"]),
  .rule "_module" (rightward (all [
    field "name" (parts ["string", "identifier", "nested_identifier"]),
    field "body" (opt (part "statement_block"))])),
  .rule "import_alias" (all [
    mark "import",
    part "identifier",
    mark "=",
    any [part "identifier", part "nested_identifier"],
    part "_semicolon"]),
  .rule "nested_type_identifier" (tight "member" (all [
    field "module" (any [part "identifier", part "nested_identifier"]),
    mark ".",
    field "name" (part "_type_identifier")])),
  .rule "interface_declaration" (tight "declare" (all [
    mark "interface",
    field "name" (part "_type_identifier"),
    field "type_parameters" (opt (part "type_parameters")),
    opt (part "extends_type_clause"),
    field "body" (titled "interface_body" (part "object_type"))])),
  .rule "extends_type_clause" (all [
    mark "extends",
    commas (field "type" (parts [
      "_type_identifier", "nested_type_identifier", "generic_type"]))]),
  .rule "enum_declaration" (all [
    opt (mark "const"), mark "enum", field "name" (part "identifier"),
    field "body" (part "enum_body")]),
  .rule "enum_body" (all [
    mark "\x7b",
    opt (all [
      commas (any [field "name" (part "_property_name"), part "enum_assignment"]),
      opt (mark ",")]),
    mark "\x7d"]),
  .rule "enum_assignment" (all [field "name" (part "_property_name"), part "_initializer"]),
  .rule "type_alias_declaration" (all [
    mark "type",
    field "name" (part "_type_identifier"),
    field "type_parameters" (opt (part "type_parameters")),
    mark "=",
    field "value" (part "type"),
    part "_semicolon"])]

end MarkupEdit.Grammar.Script
