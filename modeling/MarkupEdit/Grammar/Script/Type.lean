import MarkupEdit.Grammar.Rule

/-!
# Types

Types, and the annotations that give a name its type.
-/

namespace MarkupEdit.Grammar.Script

open Rule

/-- Modifiers, parameters and annotations. -/
def annotationEntries : List Entry := [
  .rule "accessibility_modifier" (marks ["public", "private", "protected"]),
  .rule "override_modifier" (mark "override"),
  .rule "required_parameter" (all [
    part "_parameter_name",
    field "type" (opt (part "type_annotation")),
    opt (part "_initializer")]),
  .rule "optional_parameter" (all [
    part "_parameter_name",
    mark "?",
    field "type" (opt (part "type_annotation")),
    opt (part "_initializer")]),
  .rule "_parameter_name" (all [
    many (field "decorator" (part "decorator")),
    opt (part "accessibility_modifier"),
    opt (part "override_modifier"),
    opt (mark "readonly"),
    field "pattern" (any [part "pattern", part "this"])]),
  .rule "omitting_type_annotation" (all [mark "-?:", part "type"]),
  .rule "adding_type_annotation" (all [mark "+?:", part "type"]),
  .rule "opting_type_annotation" (all [mark "?:", part "type"]),
  .rule "type_annotation" (all [
    mark ":",
    any [
      part "type",
      titled "member_expression" (part "_type_query_member_expression_in_type_annotation"),
      titled "call_expression" (part "_type_query_call_expression_in_type_annotation")]]),
  .rule "_type_query_member_expression_in_type_annotation" (all [
    field "object" (any [
      part "import",
      titled "member_expression" (part "_type_query_member_expression_in_type_annotation"),
      titled "call_expression" (part "_type_query_call_expression_in_type_annotation")]),
    mark ".",
    field "property" (any [
      part "private_property_identifier",
      titled "property_identifier" (part "identifier")])]),
  .rule "_type_query_call_expression_in_type_annotation" (all [
    field "function" (any [
      part "import",
      titled "member_expression" (part "_type_query_member_expression_in_type_annotation")]),
    field "arguments" (part "arguments")]),
  .rule "asserts" (all [mark "asserts", parts ["type_predicate", "identifier", "this"]]),
  .rule "asserts_annotation" (all [mark ":", part "asserts"])]

/-- Types. -/
def typeEntries : List Entry := [
  .rule "type" (any [
    part "primary_type",
    part "function_type",
    part "readonly_type",
    part "constructor_type",
    part "infer_type",
    bind (.level (-1)) none (titled "member_expression"
      (part "_type_query_member_expression_in_type_annotation")),
    bind (.level (-1)) none (titled "call_expression"
      (part "_type_query_call_expression_in_type_annotation"))]),
  .rule "tuple_parameter" (all [
    field "name" (any [part "identifier", part "rest_pattern"]),
    field "type" (part "type_annotation")]),
  .rule "optional_tuple_parameter" (all [
    field "name" (part "identifier"), mark "?", field "type" (part "type_annotation")]),
  .rule "optional_type" (all [part "type", mark "?"]),
  .rule "rest_type" (all [mark "...", part "type"]),
  .rule "_tuple_type_member" (any [
    titled "required_parameter" (part "tuple_parameter"),
    titled "optional_parameter" (part "optional_tuple_parameter"),
    part "optional_type",
    part "rest_type",
    part "type"]),
  .rule "constructor_type" (leftward (all [
    opt (mark "abstract"),
    mark "new",
    field "type_parameters" (opt (part "type_parameters")),
    field "parameters" (part "formal_parameters"),
    mark "=>",
    field "type" (part "type")])),
  .rule "primary_type" (any [
    part "parenthesized_type", part "predefined_type", part "_type_identifier",
    part "nested_type_identifier", part "generic_type", part "object_type", part "array_type",
    part "tuple_type", part "flow_maybe_type", part "type_query", part "index_type_query",
    titled "this_type" (part "this"), part "existential_type", part "literal_type",
    part "lookup_type", part "conditional_type", part "template_literal_type",
    part "intersection_type", part "union_type", mark "const"]),
  .rule "template_type" (all [
    mark "$\x7b",
    any [part "primary_type", part "infer_type"],
    mark "\x7d"]),
  .rule "template_literal_type" (all [
    mark "`",
    many (any [titled "string_fragment" (part "_template_chars"), part "template_type"]),
    mark "`"]),
  .rule "infer_type" (rightward (all [
    mark "infer", part "_type_identifier", opt (all [mark "extends", part "type"])])),
  .rule "conditional_type" (rightward (all [
    field "left" (part "type"), mark "extends", field "right" (part "type"), mark "?",
    field "consequence" (part "type"), mark ":", field "alternative" (part "type")])),
  .rule "generic_type" (tight "call" (all [
    field "name" (any [part "_type_identifier", part "nested_type_identifier"]),
    field "type_arguments" (part "type_arguments")])),
  .rule "type_predicate" (all [
    field "name" (any [
      part "identifier",
      part "this",
      titled "identifier" (part "predefined_type")]),
    mark "is",
    field "type" (part "type")]),
  .rule "type_predicate_annotation" (all [mark ":", part "type_predicate"]),
  .rule "_type_query_member_expression" (all [
    field "object" (any [
      part "identifier",
      part "this",
      titled "subscript_expression" (part "_type_query_subscript_expression"),
      titled "member_expression" (part "_type_query_member_expression"),
      titled "call_expression" (part "_type_query_call_expression")]),
    marks [".", "?."],
    field "property" (any [
      part "private_property_identifier",
      titled "property_identifier" (part "identifier")])]),
  .rule "_type_query_subscript_expression" (all [
    field "object" (any [
      part "identifier",
      part "this",
      titled "subscript_expression" (part "_type_query_subscript_expression"),
      titled "member_expression" (part "_type_query_member_expression"),
      titled "call_expression" (part "_type_query_call_expression")]),
    opt (mark "?."),
    mark "[",
    field "index" (parts ["predefined_type", "string", "number"]),
    mark "]"]),
  .rule "_type_query_call_expression" (all [
    field "function" (any [
      part "import",
      part "identifier",
      titled "member_expression" (part "_type_query_member_expression"),
      titled "subscript_expression" (part "_type_query_subscript_expression")]),
    field "arguments" (part "arguments")]),
  .rule "_type_query_instantiation_expression" (all [
    field "function" (any [
      part "import",
      part "identifier",
      titled "member_expression" (part "_type_query_member_expression"),
      titled "subscript_expression" (part "_type_query_subscript_expression")]),
    field "type_arguments" (part "type_arguments")]),
  .rule "type_query" (rightward (all [
    mark "typeof",
    any [
      titled "subscript_expression" (part "_type_query_subscript_expression"),
      titled "member_expression" (part "_type_query_member_expression"),
      titled "call_expression" (part "_type_query_call_expression"),
      titled "instantiation_expression" (part "_type_query_instantiation_expression"),
      part "identifier",
      part "this"]])),
  .rule "index_type_query" (all [mark "keyof", part "primary_type"]),
  .rule "lookup_type" (all [part "primary_type", mark "[", part "type", mark "]"]),
  .rule "mapped_type_clause" (all [
    field "name" (part "_type_identifier"),
    mark "in",
    field "type" (part "type"),
    opt (all [mark "as", field "alias" (part "type")])]),
  .rule "literal_type" (any [
    titled "unary_expression" (part "_number"),
    part "number",
    part "string",
    part "true",
    part "false",
    part "null",
    part "undefined"]),
  .rule "_number" (bind (.level 1) (some .left) (all [
    field "operator" (marks ["-", "+"]), field "argument" (part "number")])),
  .rule "existential_type" (mark "*"),
  .rule "flow_maybe_type" (rightward (all [mark "?", part "primary_type"])),
  .rule "parenthesized_type" (all [mark "(", part "type", mark ")"]),
  .rule "predefined_type" (any [
    mark "any",
    mark "number",
    mark "boolean",
    mark "string",
    mark "symbol",
    title ⟨"unique symbol", false⟩ (all [mark "unique", mark "symbol"]),
    mark "void",
    mark "unknown",
    mark "never",
    mark "object"]),
  .rule "type_arguments" (all [mark "<", commas (part "type"), opt (mark ","), mark ">"])]

/-- The members of object types, the parameters of generic ones, and types made of others. -/
def objectTypeEntries : List Entry := [
  .rule "object_type" (all [
    marks ["\x7b", "\x7b|"],
    opt (all [
      opt (marks [",", ";"]),
      separated (any [mark ",", part "_semicolon"]) (parts [
        "export_statement", "property_signature", "call_signature", "construct_signature",
        "index_signature", "method_signature"]),
      opt (any [mark ",", part "_semicolon"])]),
    marks ["\x7d", "|\x7d"]]),
  .rule "call_signature" (part "_call_signature"),
  .rule "property_signature" (all [
    opt (part "accessibility_modifier"),
    opt (mark "static"),
    opt (part "override_modifier"),
    opt (mark "readonly"),
    field "name" (part "_property_name"),
    opt (mark "?"),
    field "type" (opt (part "type_annotation"))]),
  .rule "type_parameters" (all [
    mark "<", commas (part "type_parameter"), opt (mark ","), mark ">"]),
  .rule "type_parameter" (all [
    opt (mark "const"),
    field "name" (part "_type_identifier"),
    field "constraint" (opt (part "constraint")),
    field "value" (opt (part "default_type"))]),
  .rule "default_type" (all [mark "=", part "type"]),
  .rule "constraint" (all [marks ["extends", ":"], part "type"]),
  .rule "construct_signature" (all [
    opt (mark "abstract"),
    mark "new",
    field "type_parameters" (opt (part "type_parameters")),
    field "parameters" (part "formal_parameters"),
    field "type" (opt (part "type_annotation"))]),
  .rule "index_signature" (all [
    opt (all [field "sign" (opt (marks ["-", "+"])), mark "readonly"]),
    mark "[",
    any [
      all [
        field "name" (any [part "identifier", titled "identifier" (part "_reserved_identifier")]),
        mark ":",
        field "index_type" (part "type")],
      part "mapped_type_clause"],
    mark "]",
    field "type" (parts [
      "type_annotation", "omitting_type_annotation", "adding_type_annotation",
      "opting_type_annotation"])]),
  .rule "array_type" (all [part "primary_type", mark "[", mark "]"]),
  .rule "tuple_type" (all [
    mark "[",
    opt (commas (part "_tuple_type_member")),
    opt (mark ","),
    mark "]"]),
  .rule "readonly_type" (all [mark "readonly", part "type"]),
  .rule "union_type" (leftward (all [opt (part "type"), mark "|", part "type"])),
  .rule "intersection_type" (leftward (all [opt (part "type"), mark "&", part "type"])),
  .rule "function_type" (leftward (all [
    field "type_parameters" (opt (part "type_parameters")),
    field "parameters" (part "formal_parameters"),
    mark "=>",
    field "return_type" (parts ["type", "asserts", "type_predicate"])])),
  .rule "_type_identifier" (titled "type_identifier" (part "identifier"))]

end MarkupEdit.Grammar.Script
